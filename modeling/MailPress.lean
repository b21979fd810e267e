import MailPress.Main
import MailPress.Proofs.Style.Partition
import MailPress.Proofs.Style.Inline
import MailPress.Proofs.Markup.Prepared
import MailPress.Proofs.Markup.Token
import MailPress.Proofs.Markup.Event
import MailPress.Proofs.Markup.Forest
import MailPress.Proofs.Markup.Building
import MailPress.Proofs.Markup.RawText
import MailPress.Proofs.Markup.Tag
import MailPress.Proofs.Markup.Growth
import MailPress.Proofs.Markup.Links
import MailPress.Proofs.Markup.RoundTrip
import MailPress.Proofs.Markup.Layout
import MailPress.Proofs.Page.Doctype
import MailPress.Proofs.Page.Delimiters
import MailPress.Proofs.Page.Head
import MailPress.Proofs.Page.HeadStyles
import MailPress.Proofs.Page.ImageSizes
import MailPress.Proofs.Page.OneDoctype
import MailPress.Proofs.Css.Scan
import MailPress.Proofs.Css.Thinned
import MailPress.Proofs.Css.Balance
import MailPress.Proofs.Style.Balance
import MailPress.Proofs.Css.Matching
import MailPress.Proofs.Style.Pruned
import MailPress.Proofs.Style.Unused
import MailPress.Proofs.Disk.Interleaving
import MailPress.Proofs.Image.Upkeep
import MailPress.Proofs.Project.Rebuild
import MailPress.Proofs.Disk.Change
import MailPress.Proofs.Image.FetchedOnce
import MailPress.Proofs.Image.AnyOrder
import MailPress.Proofs.Project.Isolation
import MailPress.Proofs.Image.Inside
import MailPress.Proofs.Render.Expansion
import MailPress.Proofs.Markup.SourceOrder
import MailPress.Proofs.Css.Onward
import MailPress.Proofs.Image.StyledSize
import MailPress.Proofs.Css.Strings
import MailPress.Proofs.Css.AttributeTest
import MailPress.Proofs.Css.TightSelector
import MailPress.Proofs.Style.MergedQueries
import MailPress.Proofs.Page.TidyText
import MailPress.Proofs.Page.PlainWords
import MailPress.Proofs.Markup.AttributeTrip
import MailPress.Proofs.Markup.Escaping
import MailPress.Proofs.Page.Restoration
import MailPress.Proofs.Page.Additions
import MailPress.Proofs.Css.Position
import MailPress.Proofs.Console.Bar
import MailPress.Proofs.Css.Progress
