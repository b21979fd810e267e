import MailPress.Scss.Arithmetic
import MailPress.Scss.Expression.Lexeme
import MailPress.Text.Search

/-!
# Functions of style sheets

The functions that every style sheet may use: on numbers, colours, texts, lists
and maps. Each has named parameters, and is applied to a value for every
parameter, or none where an argument is missing.

A function that is not found here and not defined by the style sheet is left in
the output with its arguments.
-/

namespace MailPress
namespace Scss

/-- A function that every style sheet may use. -/
structure Builtin where
  /-- The names of its parameters. -/
  parameters : List String
  /-- Whether it takes any number of further arguments. -/
  isOpen : Bool := false
  /-- What it gives for its arguments, further ones at the end. -/
  apply : List (Option Value) → Option Value

/-- The text of a function with its arguments. -/
def plainCall? (name : String) (arguments : List Value) : Option Value :=
  (arguments.mapM Value.css?).map fun texts =>
    .word (name ++ "(" ++ String.intercalate ", " texts ++ ")")

/-- The number that a value is. -/
def Value.number? : Value → Option Number
  | .number amount => some amount
  | _ => none

/-- The colour that a value is. -/
def Value.colour? : Value → Option Colour
  | .colour shade => some shade
  | _ => none

/-- The text that a value is, with whether it is quoted. -/
def Value.text? : Value → Option (String × Bool)
  | .text content quoted => some (content, quoted)
  | _ => none

/-- The integer that a value is. -/
def Value.integer? (value : Value) : Option Int :=
  value.number?.bind fun number => if number.value.den = 1 then some number.value.num else none

/-- A number without units as a value. -/
def ofRational (value : Rat) : Value :=
  .number (.plain value)

/-- A percentage as a value. -/
def ofPercentage (value : Rat) : Value :=
  .number ⟨value, ["%"], [], none⟩

/-- A share of one, given as a percentage. -/
def share? (value : Value) : Option Rat :=
  value.number?.map fun number => number.value / 100

/-- An opacity, given as a number or a percentage. -/
def opacity? (value : Value) : Option Rat :=
  value.number?.map fun number =>
    if number.units = ["%"] then number.value / 100 else number.value

/-- A channel, given as a number or a percentage. -/
def channel? (value : Value) : Option Rat :=
  value.number?.map fun number =>
    if number.units = ["%"] then number.value * 255 / 100 else number.value

/-- An angle in degrees. -/
def angle? (value : Value) : Option Rat :=
  value.number?.map fun number =>
    (number.valueIn? ⟨0, ["deg"], [], none⟩).getD number.value

namespace Builtin

/-- A function of one argument. -/
def one (name : String) (apply : Value → Option Value) : Builtin where
  parameters := [name]
  apply
    | [some first] => apply first
    | _ => none

/-- A function of two arguments. -/
def two (first second : String) (apply : Value → Value → Option Value) : Builtin where
  parameters := [first, second]
  apply
    | [some first, some second] => apply first second
    | _ => none

/-- A function of one number that keeps the units. -/
def onNumber (change : Rat → Rat) : Builtin :=
  .one "number" fun value =>
    value.number?.map fun number =>
      .number { number with value := change number.value, spelling := none }

/-- A function that changes a colour by an amount. -/
def onColour (name : String) (change : Rat → Colour → Colour) : Builtin where
  parameters := ["color", "amount"]
  apply
    | [some (.colour colour), some (.number amount)] =>
        some (.colour (change amount.value colour))
    | [some (.number amount), none] => plainCall? name [.number amount]
    | _ => none

/-- A function that shows a part of a colour. -/
def ofColour (view : Colour → Value) : Builtin :=
  .one "color" fun value => value.colour?.map view

/-- The least number, or the greatest, of the arguments. -/
def extreme (name : String) (isBetter : Rat → Rat → Bool) : Builtin where
  parameters := []
  isOpen := true
  apply arguments :=
    let values := arguments.filterMap id
    let best? := (values.mapM Value.number?).bind fun numbers =>
      match numbers with
      | [] => none
      | first :: rest =>
          rest.foldlM
            (fun best number =>
              (compare? isBetter number best).map fun better =>
                if better then number else best)
            first
    match best? with
    | some best => some (.number best.computed)
    | none => plainCall? name values

end Builtin

/-- The functions on numbers. -/
def numberFunctions : List (String × Builtin) :=
  [("percentage", .one "number" fun value =>
      value.number?.map fun number => ofPercentage (number.value * 100)),
    ("round", .onNumber fun value => roundHalfAway value),
    ("ceil", .onNumber fun value => value.ceil),
    ("floor", .onNumber fun value => value.floor),
    ("abs", .onNumber fun value => if value < 0 then -value else value),
    ("min", .extreme "min" fun a b => a < b),
    ("max", .extreme "max" fun a b => b < a),
    ("unit", .one "number" fun value =>
      value.number?.map fun number =>
        .text (String.intercalate "*" number.units ++
          (if number.divisors.isEmpty then ""
            else "/" ++ String.intercalate "*" number.divisors)) true),
    ("unitless", .one "number" fun value =>
      value.number?.map fun number => .truth number.isPlain),
    ("comparable", .two "number1" "number2" fun first second =>
      first.number?.bind fun first => second.number?.map fun second =>
        .truth (compare? (fun _ _ => true) first second).isSome),
    ("math.div", .two "number1" "number2" divide?)]

/-- A number with at most one unit, from its text. -/
def numberOf? (text : List Char) : Option Value :=
  match takeNumber? text with
  | some (value, unit, []) =>
      some (.number ⟨value, if unit.isEmpty then [] else [unit], [], none⟩)
  | _ => none

/-- The channels in one argument, where a slash after the third may stand before the opacity. -/
def channelsIn (elements : List Value) : List Value :=
  match elements with
  | [first, second, .number third] =>
      match third.spelling.bind fun text => Text.splitOnce ['/'] text.toList with
      | some (channel, opacity) =>
          match numberOf? channel, numberOf? opacity with
          | some channel, some opacity => [first, second, channel, opacity]
          | _, _ => elements
      | none => elements
  | _ => elements

/-- A colour from arguments for its channels; kept as a call when some are no numbers. -/
def channelsFunction (name : String) : Builtin where
  parameters := ["red", "green", "blue", "alpha"]
  apply arguments :=
    match arguments with
    | [some (.colour colour), some alpha, none, none] =>
        match opacity? alpha with
        | some alpha =>
            some (.colour (.ofChannels colour.red colour.green colour.blue alpha .channels))
        | none =>
            plainCall? name [ofRational colour.red, ofRational colour.green,
              ofRational colour.blue, alpha]
    | _ =>
        let given := arguments.filterMap id
        let values := match given with
          | [.list elements .space false] => channelsIn elements
          | _ => given
        match values with
        | [red, green, blue] =>
            match channel? red, channel? green, channel? blue with
            | some red, some green, some blue =>
                some (.colour (.ofChannels red green blue 1 .channels))
            | _, _, _ => plainCall? name given
        | [red, green, blue, alpha] =>
            match channel? red, channel? green, channel? blue, opacity? alpha with
            | some red, some green, some blue, some alpha =>
                some (.colour (.ofChannels red green blue alpha .channels))
            | _, _, _, _ => plainCall? name given
        | [_] | [_, _] =>
            if given.any fun value => value matches .text _ false then plainCall? name given
            else none
        | _ => none

/-- A colour from hue, saturation and lightness. -/
def cylinderFunction (name : String) : Builtin where
  parameters := ["hue", "saturation", "lightness", "alpha"]
  apply arguments :=
    let given := arguments.filterMap id
    let values := match given with
      | [.list elements .space false] => channelsIn elements
      | _ => given
    match values with
    | hue :: saturation :: lightness :: rest =>
        let alpha := match rest with
          | [] => some 1
          | alpha :: _ => opacity? alpha
        match angle? hue, share? saturation, share? lightness, alpha with
        | some hue, some saturation, some lightness, some alpha =>
            some (.colour (.ofCylinder ⟨hue, saturation, lightness⟩ alpha .cylinder))
        | _, _, _, _ => plainCall? name given
    | _ =>
        if given.any fun value => value matches .text _ false then plainCall? name given
        else none

/-- The weighted mean of two colours. -/
def mixFunction : Builtin where
  parameters := ["color1", "color2", "weight"]
  apply
    | [some (.colour first), some (.colour second), weight] =>
        let weight := (weight.bind share?).getD (1 / 2)
        some (.colour (first.mix second weight))
    | _ => none

/-- The opposite colour. -/
def invertFunction : Builtin where
  parameters := ["color", "weight"]
  apply
    | [some (.colour colour), weight] =>
        let weight := (weight.bind share?).getD 1
        let opposite := Colour.ofChannels (255 - colour.red) (255 - colour.green)
          (255 - colour.blue) colour.alpha .computed
        some (.colour (opposite.mix colour weight))
    | [some (.number amount), none] => plainCall? "invert" [.number amount]
    | _ => none

/-- How a function on the parts of a colour uses an argument: from the part itself, its greatest
value and the argument. -/
abbrev PartChange :=
  (part limit amount : Rat) → Rat

/-- Add the argument to the part. -/
def PartChange.adjust : PartChange :=
  fun part _ amount => part + amount

/-- Put the argument in the place of the part. -/
def PartChange.set : PartChange :=
  fun _ _ amount => amount

/-- Bring the part closer to an end by a percentage of the way. -/
def PartChange.scale : PartChange :=
  fun part limit amount =>
    if amount < 0 then part + part * amount else part + (limit - part) * amount

/-- A function that changes the named parts of a colour. -/
def partsFunction (change : PartChange) (scaling : Bool) : Builtin where
  parameters := ["color", "red", "green", "blue", "hue", "saturation", "lightness", "alpha"]
  apply
    | [some (.colour colour), red, green, blue, hue, saturation, lightness, alpha] =>
        let amount := fun (argument : Option Value) (unit : Rat) =>
          argument.bind fun value => value.number?.map fun number =>
            if scaling then number.value / 100 else number.value / unit
        let part := fun (old limit : Rat) (argument : Option Value) (unit : Rat) =>
          ((amount argument unit).map (change old limit)).getD old
        let opacity := clampTo 0 1 (part colour.alpha 1 alpha 1)
        if hue.isSome || saturation.isSome || lightness.isSome then
          let view := colour.cylinder
          some (.colour (.ofCylinder ⟨part view.hue 360 hue 1,
            clampTo 0 1 (part view.saturation 1 saturation 100),
            clampTo 0 1 (part view.lightness 1 lightness 100)⟩ opacity .computed))
        else
          some (.colour (.ofChannels (part colour.red 255 red 1) (part colour.green 255 green 1)
            (part colour.blue 255 blue 1) opacity .computed))
    | _ => none

/-- The functions on colours. -/
def colourFunctions : List (String × Builtin) :=
  [("rgb", channelsFunction "rgb"), ("rgba", channelsFunction "rgba"),
    ("hsl", cylinderFunction "hsl"), ("hsla", cylinderFunction "hsla"),
    ("red", .ofColour fun colour => ofRational colour.red),
    ("green", .ofColour fun colour => ofRational colour.green),
    ("blue", .ofColour fun colour => ofRational colour.blue),
    ("hue", .ofColour fun colour => .number ⟨colour.cylinder.hue, ["deg"], [], none⟩),
    ("saturation", .ofColour fun colour => ofPercentage (colour.cylinder.saturation * 100)),
    ("lightness", .ofColour fun colour => ofPercentage (colour.cylinder.lightness * 100)),
    ("alpha", .one "color" fun value =>
      match value with
      | .colour colour => some (ofRational colour.alpha)
      | other => plainCall? "alpha" [other]),
    ("opacity", .one "color" fun value =>
      match value with
      | .colour colour => some (ofRational colour.alpha)
      | other => plainCall? "opacity" [other]),
    ("mix", mixFunction),
    ("invert", invertFunction),
    ("lighten", .onColour "lighten" fun amount => Colour.overCylinder fun view =>
      { view with lightness := clampTo 0 1 (view.lightness + amount / 100) }),
    ("darken", .onColour "darken" fun amount => Colour.overCylinder fun view =>
      { view with lightness := clampTo 0 1 (view.lightness - amount / 100) }),
    ("saturate", .onColour "saturate" fun amount => Colour.overCylinder fun view =>
      { view with saturation := clampTo 0 1 (view.saturation + amount / 100) }),
    ("desaturate", .onColour "desaturate" fun amount => Colour.overCylinder fun view =>
      { view with saturation := clampTo 0 1 (view.saturation - amount / 100) }),
    ("adjust-hue", .onColour "adjust-hue" fun amount => Colour.overCylinder fun view =>
      { view with hue := view.hue + amount }),
    ("grayscale", .one "color" fun value =>
      match value with
      | .colour colour =>
          some (.colour (colour.overCylinder fun view => { view with saturation := 0 }))
      | other => plainCall? "grayscale" [other]),
    ("complement", .one "color" fun value =>
      value.colour?.map fun colour =>
        .colour (colour.overCylinder fun view => { view with hue := view.hue + 180 })),
    ("opacify", .onColour "opacify" fun amount colour => colour.fade amount),
    ("fade-in", .onColour "fade-in" fun amount colour => colour.fade amount),
    ("transparentize", .onColour "transparentize" fun amount colour => colour.fade (-amount)),
    ("fade-out", .onColour "fade-out" fun amount colour => colour.fade (-amount)),
    ("adjust-color", partsFunction .adjust false),
    ("change-color", partsFunction .set false),
    ("scale-color", partsFunction .scale true)]

/-- The place in a sequence that an index names: from one on, or from the back when negative. -/
def placeOf? (length : Nat) (index : Int) : Option Nat :=
  if 1 ≤ index && index ≤ length then some (index.toNat - 1)
  else if index < 0 && -index ≤ length then some (length - index.natAbs)
  else none

/-- The stretch of a text between two indices, both included. -/
def sliceText (content : List Char) (first last : Int) : List Char :=
  let length : Int := content.length
  let start := if first < 0 then max 0 (length + first) else max 0 (first - 1)
  let stop := if last < 0 then length + last + 1 else min length last
  (content.take stop.toNat).drop start.toNat

/-- The functions on texts. -/
def textFunctions : List (String × Builtin) :=
  [("quote", .one "string" fun value => value.text?.map fun text => .text text.1 true),
    ("unquote", .one "string" fun value =>
      match value with
      | .text content _ => some (.word content)
      | other => some other),
    ("str-length", .one "string" fun value =>
      value.text?.map fun text => ofRational text.1.length),
    ("to-upper-case", .one "string" fun value =>
      value.text?.map fun text => .text (text.1.map Char.toUpper) text.2),
    ("to-lower-case", .one "string" fun value =>
      value.text?.map fun text => .text (Text.lower text.1) text.2),
    ("str-index", .two "string" "substring" fun value part =>
      value.text?.bind fun text => part.text?.map fun part =>
        match Text.splitOnce part.1.toList text.1.toList with
        | some (before, _) => ofRational (before.length + 1)
        | none => .null),
    ("str-insert",
      { parameters := ["string", "insert", "index"]
        apply := fun arguments =>
          match arguments with
          | [some (.text content quoted), some (.text insert _), some index] =>
              index.integer?.map fun index =>
                let characters := content.toList
                let place :=
                  if 0 < index then min (index.toNat - 1) characters.length
                  else characters.length + 1 - index.natAbs
                .text (String.ofList (characters.take place ++ insert.toList ++
                  characters.drop place)) quoted
          | _ => none }),
    ("str-slice",
      { parameters := ["string", "start-at", "end-at"]
        apply := fun arguments =>
          match arguments with
          | [some (.text content quoted), some first, last] =>
              first.integer?.map fun first =>
                .text (String.ofList (sliceText content.toList first
                  ((last.bind Value.integer?).getD (-1)))) quoted
          | _ => none })]

/-- The separator that a word names. -/
def separatorNamed? (value : Option Value) : Option Separator :=
  match value with
  | some (.text "comma" _) => some .comma
  | some (.text "space" _) => some .space
  | some (.text "slash" _) => some .slash
  | _ => none

/-- Whether a value is a list in brackets. -/
def isBracketed : Value → Bool
  | .list _ _ bracketed => bracketed
  | _ => false

/-- The separator of two lists joined. -/
def joinedSeparator (first second : Value) (named : Option Separator) : Separator :=
  match named, first.separator, second.separator with
  | some separator, _, _ => separator
  | none, .undecided, .undecided => .space
  | none, .undecided, separator => separator
  | none, separator, _ => separator

/-- The lists of elements at the same places, as long as every list has one. -/
def zipAll : (limit : Nat) → List (List Value) → List Value
  | 0, _ => []
  | limit + 1, lists =>
      match lists.mapM List.head? with
      | some heads =>
          if lists.isEmpty then []
          else .list heads .space false :: zipAll limit (lists.map (List.drop 1))
      | none => []

/-- The functions on lists. -/
def listFunctions : List (String × Builtin) :=
  [("length", .one "list" fun value => some (ofRational value.elements.length)),
    ("nth", .two "list" "n" fun value index =>
      index.integer?.bind fun index =>
        (placeOf? value.elements.length index).bind fun place => value.elements[place]?),
    ("set-nth",
      { parameters := ["list", "n", "value"]
        apply := fun arguments =>
          match arguments with
          | [some list, some index, some value] =>
              index.integer?.bind fun index =>
                (placeOf? list.elements.length index).map fun place =>
                  .list (list.elements.set place value) list.separator (isBracketed list)
          | _ => none }),
    ("join",
      { parameters := ["list1", "list2", "separator", "bracketed"]
        apply := fun arguments =>
          match arguments with
          | [some first, some second, separator, bracketed] =>
              some (.list (first.elements ++ second.elements)
                (joinedSeparator first second (separatorNamed? separator))
                ((bracketed.map Value.isTrue).getD (isBracketed first)))
          | _ => none }),
    ("append",
      { parameters := ["list", "val", "separator"]
        apply := fun arguments =>
          match arguments with
          | [some list, some value, separator] =>
              some (.list (list.elements ++ [value])
                (joinedSeparator list .null (separatorNamed? separator)) (isBracketed list))
          | _ => none }),
    ("index", .two "list" "value" fun list value =>
      match list.elements.findIdx? (Value.same value) with
      | some place => some (ofRational (place + 1))
      | none => some .null),
    ("zip",
      { parameters := []
        isOpen := true
        apply := fun arguments =>
          let lists := (arguments.filterMap id).map Value.elements
          some (.list (zipAll ((lists.map List.length).foldl max 0) lists) .comma false) }),
    ("list-separator", .one "list" fun value =>
      some (.word (match value.separator with
        | .comma => "comma"
        | .slash => "slash"
        | _ => "space"))),
    ("is-bracketed", .one "list" fun value => some (.truth (isBracketed value)))]

/-- The functions on maps. -/
def mapFunctions : List (String × Builtin) :=
  [("map-get",
      { parameters := ["map", "key"]
        isOpen := true
        apply := fun arguments =>
          match arguments.filterMap id with
          | first :: keys =>
              keys.foldlM
                (fun current key =>
                  match current.entries? with
                  | some entries => some ((lookupKey? key entries).getD .null)
                  | none => if current matches .null then some .null else none)
                first
          | [] => none }),
    ("map-has-key", .two "map" "key" fun map key =>
      map.entries?.map fun entries => .truth (lookupKey? key entries).isSome),
    ("map-keys", .one "map" fun map =>
      map.entries?.map fun entries => .list (entries.map Prod.fst) .comma false),
    ("map-values", .one "map" fun map =>
      map.entries?.map fun entries => .list (entries.map Prod.snd) .comma false),
    ("map-merge", .two "map1" "map2" fun first second =>
      first.entries?.bind fun first => second.entries?.map fun second =>
        .map (second.foldl (fun entries entry => putKey entry.1 entry.2 entries) first)),
    ("map-remove",
      { parameters := ["map"]
        isOpen := true
        apply := fun arguments =>
          match arguments.filterMap id with
          | first :: keys =>
              first.entries?.map fun entries =>
                .map (entries.filter fun entry => !keys.any entry.1.same)
          | [] => none })]

/-- The name of the type of a value. -/
def Value.typeName : Value → String
  | .null => "null"
  | .truth _ => "bool"
  | .number _ => "number"
  | .colour _ => "color"
  | .text content quoted =>
      if !quoted && Text.hasStart "calc(" content then "calculation" else "string"
  | .list _ _ _ => "list"
  | .map _ => "map"

/-- The functions on values of every kind. -/
def valueFunctions : List (String × Builtin) :=
  [("type-of", .one "value" fun value => some (.word value.typeName)),
    ("inspect", .one "value" fun value => some (.word value.describe)),
    ("feature-exists", .one "feature" fun _ => some (.truth false))]

/-- All functions that every style sheet may use. -/
def builtins : List (String × Builtin) :=
  numberFunctions ++ colourFunctions ++ textFunctions ++ listFunctions ++ mapFunctions ++
    valueFunctions

/-- The names that the functions of a module have outside it, where they differ. -/
def memberName (module member : String) : String :=
  match module, member with
  | "math", "div" => "math.div"
  | "math", "is-unitless" => "unitless"
  | "math", "compatible" => "comparable"
  | "color", "adjust" => "adjust-color"
  | "color", "scale" => "scale-color"
  | "color", "change" => "change-color"
  | "list", "separator" => "list-separator"
  | "map", name => "map-" ++ name
  | "string", "length" => "str-length"
  | "string", "index" => "str-index"
  | "string", "insert" => "str-insert"
  | "string", "slice" => "str-slice"
  | _, name => name

/-- Match arguments to parameters: those by position first, then those by name. None when there
are too many or one has an unknown name. -/
def matchArguments? (parameters : List String) (isOpen : Bool)
    (positional : List Value) (named : List (String × Value)) : Option (List (Option Value)) :=
  let single := (parameters.zipIdx).map fun (parameter, place) =>
    match positional[place]? with
    | some value => some value
    | none => named.lookup parameter
  let further := positional.drop parameters.length
  if !isOpen && !further.isEmpty then none
  else if named.any fun argument => !parameters.contains argument.1 then none
  else some (single ++ further.map some)

/-- Apply a function to arguments. -/
def Builtin.call? (function : Builtin) (positional : List Value)
    (named : List (String × Value)) : Option Value :=
  (matchArguments? function.parameters function.isOpen positional named).bind function.apply

end Scss
end MailPress
