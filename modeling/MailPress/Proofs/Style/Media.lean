import MailPress.Style.Partition
import MailPress.Proofs.Css.RoundTrip

/-!
# Merged media queries

Merging moves the media queries behind all other items and puts those that are the
same together, under the query of the first of them. It loses no declaration and
adds none.
-/

namespace MailPress
namespace Style

/-- The first of some queries that is the same as a query, or the query itself. -/
def firstAmong (queries : List String) (query : String) : String :=
  (queries.find? fun first => normalizeQuery first = normalizeQuery query).getD query

/-- The queries of the media queries among some items. -/
def mediaQueries (items : List Css.Item) : List String :=
  items.filterMap fun item =>
    match item with
    | .group name query _ => if name = mediaName then some query else none
    | _ => none

/-- An occurrence under the first query that is the same as that of the media query around
it. -/
def underFirst (queries : List String) (occurrence : Css.Occurrence) : Css.Occurrence :=
  match occurrence.enclosing with
  | (name, query) :: inner =>
      if name = mediaName then
        { occurrence with enclosing := (name, firstAmong queries query) :: inner }
      else occurrence
  | [] => occurrence

@[simp] theorem underFirst_within_media
    (queries : List String)
    (query : String)
    (occurrence : Css.Occurrence) :
    underFirst queries (occurrence.within mediaName query) =
      occurrence.within mediaName (firstAmong queries query) := by
  simp [underFirst, Css.Occurrence.within]

theorem underFirst_within_of_ne
    (queries : List String)
    {name : String}
    (other : name ≠ mediaName)
    (prelude : String)
    (occurrence : Css.Occurrence) :
    underFirst queries (occurrence.within name prelude) = occurrence.within name prelude := by
  simp [underFirst, Css.Occurrence.within, other]

theorem forced_underFirst (queries : List String) (occurrence : Css.Occurrence) :
    (underFirst queries occurrence).forced = underFirst queries occurrence.forced := by
  obtain ⟨_ | ⟨⟨name, query⟩, inner⟩, selectors, declaration⟩ := occurrence
  · rfl
  · change (underFirst queries
        (Css.Occurrence.within name query ⟨inner, selectors, declaration⟩)).forced =
      underFirst queries (Css.Occurrence.within name query ⟨inner, selectors, declaration⟩).forced
    by_cases media : name = mediaName
    · have markable : ¬Css.unmarkedNames.contains mediaName = true := by decide
      rw [media, underFirst_within_media, Css.Occurrence.forced_within,
        Css.Occurrence.forced_within, if_neg markable, if_neg markable, underFirst_within_media]
    · rw [underFirst_within_of_ne queries media, Css.Occurrence.forced_within]
      split
      · rw [underFirst_within_of_ne queries media]
      · rw [underFirst_within_of_ne queries media]

/-- The declarations of a media query in their places. -/
def Media.occurrences (media : Media) : List Css.Occurrence :=
  (Css.allOccurrences media.items).map (Css.Occurrence.within mediaName media.query)

/-- One step of the merge. -/
def addItem (merged : List Media) (item : Css.Item) : List Media :=
  match item with
  | .group name query inner => if name = mediaName then addMedia query inner merged else merged
  | _ => merged

/-! ## Adding to a media query -/

@[simp] theorem firstAmong_nil (query : String) : firstAmong [] query = query := rfl

theorem firstAmong_cons (first : String) (others : List String) (query : String) :
    firstAmong (first :: others) query =
      if normalizeQuery first = normalizeQuery query then first else firstAmong others query := by
  by_cases same : normalizeQuery first = normalizeQuery query <;> simp [firstAmong, same]

theorem firstAmong_append_cons_self
    (earlier later : List String)
    (query : String) :
    firstAmong (earlier ++ query :: later) query = firstAmong earlier query := by
  induction earlier with
  | nil => rw [List.nil_append, firstAmong_cons, if_pos rfl, firstAmong_nil]
  | cons first earlier inductionHypothesis =>
      rw [List.cons_append, firstAmong_cons, firstAmong_cons, inductionHypothesis]

theorem firstAmong_append_cons_of_ne
    {query wanted : String}
    (different : normalizeQuery query ≠ normalizeQuery wanted)
    (earlier later : List String) :
    firstAmong (earlier ++ query :: later) wanted = firstAmong (earlier ++ later) wanted := by
  induction earlier with
  | nil => rw [List.nil_append, firstAmong_cons, if_neg different, List.nil_append]
  | cons first earlier inductionHypothesis =>
      rw [List.cons_append, List.cons_append, firstAmong_cons, firstAmong_cons,
        inductionHypothesis]

/-- A query that is new comes behind the others, and one that is not new is not needed. -/
theorem firstAmong_addMedia
    (query : String)
    (items : List Css.Item)
    (merged : List Media)
    (later : List String)
    (wanted : String) :
    firstAmong ((addMedia query items merged).map Media.query ++ later) wanted =
      firstAmong (merged.map Media.query ++ query :: later) wanted := by
  induction merged with
  | nil => rfl
  | cons media rest inductionHypothesis =>
      by_cases same : normalizeQuery media.query = normalizeQuery query
      · rw [addMedia, if_pos same]
        simp only [List.map_cons, List.cons_append, firstAmong_cons]
        by_cases found : normalizeQuery media.query = normalizeQuery wanted
        · rw [if_pos found, if_pos found]
        · have different : normalizeQuery query ≠ normalizeQuery wanted := by
            rw [← same]
            exact found
          rw [if_neg found, if_neg found, firstAmong_append_cons_of_ne different]
      · rw [addMedia, if_neg same]
        simp only [List.map_cons, List.cons_append, firstAmong_cons, inductionHypothesis]

/-- Adding items to a media query adds their occurrences, under the first query that is the
same. -/
theorem occurrences_addMedia_perm
    (query : String)
    (items : List Css.Item)
    (merged : List Media) :
    ((addMedia query items merged).flatMap Media.occurrences).Perm
      (merged.flatMap Media.occurrences ++ (Css.allOccurrences items).map
        (Css.Occurrence.within mediaName (firstAmong (merged.map Media.query) query))) := by
  induction merged with
  | nil =>
      rw [addMedia, List.flatMap_singleton]
      exact .refl _
  | cons media rest inductionHypothesis =>
      rw [addMedia, List.map_cons, firstAmong_cons]
      split
      · rw [List.flatMap_cons, List.flatMap_cons, Media.occurrences, Css.allOccurrences_append,
          List.map_append, List.append_assoc, List.append_assoc]
        exact List.perm_append_comm.append_left _
      · rw [List.flatMap_cons, List.flatMap_cons, List.append_assoc]
        exact inductionHypothesis.append_left _

/-! ## Merging -/

/-- The declarations that an item brings into a merge, under the first query that is the
same. -/
def brought (queries : List String) : Css.Item → List Css.Occurrence
  | .group name query inner =>
      if name = mediaName then
        (Css.allOccurrences inner).map
          (Css.Occurrence.within mediaName (firstAmong queries query))
      else []
  | _ => []

theorem brought_congr
    {queries others : List String}
    (same : ∀ query, firstAmong queries query = firstAmong others query) :
    brought queries = brought others := by
  funext item
  cases item with
  | group name query inner => rw [brought, brought, same]
  | rule rule => rfl
  | statement name prelude => rfl
  | descriptors name prelude declarations => rfl

/-- A merge loses no occurrence and adds none. -/
theorem occurrences_foldl_addItem_perm
    (items : List Css.Item)
    (merged : List Media) :
    ((items.foldl addItem merged).flatMap Media.occurrences).Perm
      (merged.flatMap Media.occurrences ++
        items.flatMap (brought (merged.map Media.query ++ mediaQueries items))) := by
  induction items generalizing merged with
  | nil => simp
  | cons item items inductionHypothesis =>
      cases item with
      | rule rule => exact inductionHypothesis merged
      | statement name prelude => exact inductionHypothesis merged
      | descriptors name prelude declarations => exact inductionHypothesis merged
      | group name query inner =>
          by_cases media : name = mediaName
          · subst media
            have step := inductionHypothesis (addMedia query inner merged)
            rw [brought_congr (firstAmong_addMedia query inner merged (mediaQueries items))] at step
            have queries_eq : mediaQueries (.group mediaName query inner :: items) =
                query :: mediaQueries items := by
              simp [mediaQueries]
            have here : brought (merged.map Media.query ++ query :: mediaQueries items)
                (.group mediaName query inner) = (Css.allOccurrences inner).map
                  (Css.Occurrence.within mediaName
                    (firstAmong (merged.map Media.query) query)) := by
              rw [brought, if_pos rfl, firstAmong_append_cons_self]
            rw [List.foldl_cons, addItem, if_pos rfl, queries_eq, List.flatMap_cons, here,
              ← List.append_assoc]
            exact step.trans ((occurrences_addMedia_perm query inner merged).append_right _)
          · have queries_eq : mediaQueries (.group name query inner :: items) =
                mediaQueries items := by
              simp [mediaQueries, media]
            have nothing (queries : List String) :
                brought queries (.group name query inner) = [] := by
              rw [brought, if_neg media]
            rw [List.foldl_cons, addItem, if_neg media, queries_eq, List.flatMap_cons, nothing,
              List.nil_append]
            exact inductionHypothesis merged

/-- No at-rule around declarations is named like a media query. -/
def HasNoMediaDescriptors (items : List Css.Item) : Prop :=
  ∀ name prelude declarations, .descriptors name prelude declarations ∈ items → name ≠ mediaName

/-- What a media query brings into a merge are its occurrences. -/
theorem brought_eq
    {item : Css.Item}
    (noDescriptors : ∀ name prelude declarations,
      item = .descriptors name prelude declarations → name ≠ mediaName)
    (queries : List String) :
    brought queries item =
      if isMedia item then item.occurrences.map (underFirst queries) else [] := by
  cases item with
  | rule rule => rfl
  | statement name prelude => simp [brought, Css.Item.occurrences]
  | descriptors name prelude declarations =>
      have other := noDescriptors name prelude declarations rfl
      simp [brought, isMedia, other]
  | group name query inner =>
      by_cases media : name = mediaName
      · subst media
        simp [brought, isMedia, Css.Item.occurrences, Function.comp_def]
      · simp [brought, isMedia, media]

theorem map_underFirst_of_not_isMedia
    {item : Css.Item}
    (other : isMedia item = false)
    (queries : List String) :
    item.occurrences.map (underFirst queries) = item.occurrences := by
  cases item with
  | rule rule => simp [Css.Item.occurrences, underFirst, Function.comp_def]
  | statement name prelude => rfl
  | group name query inner =>
      have name_ne : name ≠ mediaName := by simpa [isMedia] using other
      simp [Css.Item.occurrences, Function.comp_def, underFirst_within_of_ne queries name_ne]
  | descriptors name prelude declarations =>
      have name_ne : name ≠ mediaName := by simpa [isMedia] using other
      simp [Css.Item.occurrences, underFirst, name_ne, Function.comp_def]

theorem allOccurrences_filter
    (keep : Css.Item → Bool)
    (change : Css.Occurrence → Css.Occurrence)
    (items : List Css.Item) :
    (Css.allOccurrences (items.filter keep)).map change =
      items.flatMap fun item => if keep item then item.occurrences.map change else [] := by
  induction items with
  | nil => rfl
  | cons item items inductionHypothesis =>
      rw [List.filter_cons, List.flatMap_cons, ← inductionHypothesis]
      split
      · rw [Css.allOccurrences, List.map_append]
      · rw [List.nil_append]

/-- Merging keeps the declarations of other items in front and in order, and behind them brings
those of the media queries, each under the first query that is the same. -/
theorem allOccurrences_mergeMediaQueries
    {items : List Css.Item}
    (noDescriptors : HasNoMediaDescriptors items) :
    ∃ merged, Css.allOccurrences (mergeMediaQueries items) =
        Css.allOccurrences (items.filter (!isMedia ·)) ++ merged ∧
      merged.Perm ((Css.allOccurrences (items.filter isMedia)).map
        (underFirst (mediaQueries items))) := by
  refine ⟨(mergedMedia items).flatMap Media.occurrences, ?_, ?_⟩
  · rw [mergeMediaQueries, Css.allOccurrences_append]
    congr 1
    rw [Css.allOccurrences_eq_flatMap, List.flatMap_map]
    rfl
  · have merged := occurrences_foldl_addItem_perm items []
    have brought_items : items.flatMap (brought (mediaQueries items)) =
        (Css.allOccurrences (items.filter isMedia)).map (underFirst (mediaQueries items)) := by
      rw [allOccurrences_filter]
      refine List.flatMap_congr fun item member => brought_eq ?_ (mediaQueries items)
      rintro name prelude declarations rfl
      exact noDescriptors name prelude declarations member
    rw [← brought_items]
    exact merged

/-! ## Demands on merged items -/

section Demands

variable {demand : Css.Demand}

/-- A media query that meets a demand as a group of items. -/
def Media.Meets (demand : Css.Demand) (media : Media) : Prop :=
  (Css.Item.group mediaName media.query media.items).Meets demand

theorem meets_of_mem_addMedia
    (stable : demand.IsStable)
    {query : String}
    {items : List Css.Item}
    {merged : List Media}
    (met : (Css.Item.group mediaName query items).Meets demand)
    (mergedMet : ∀ media ∈ merged, media.Meets demand) :
    ∀ media ∈ addMedia query items merged, media.Meets demand := by
  induction merged with
  | nil =>
      intro media member
      obtain rfl := List.mem_singleton.mp member
      exact met
  | cons first rest inductionHypothesis =>
      obtain ⟨firstMet, restMet⟩ := List.forall_mem_cons.mp mergedMet
      rw [addMedia]
      split
      · refine List.forall_mem_cons.mpr ⟨⟨stable.group firstMet.1, ?_⟩, restMet⟩
        refine Css.allMeet_iff.mpr (List.forall_mem_append.mpr ⟨?_, ?_⟩)
        · exact Css.allMeet_iff.mp firstMet.2
        · exact Css.allMeet_iff.mp met.2
      · exact List.forall_mem_cons.mpr ⟨firstMet, inductionHypothesis restMet⟩

theorem meets_of_mem_foldl_addItem
    (stable : demand.IsStable)
    {items : List Css.Item}
    (met : Css.AllMeet demand items)
    {merged : List Media}
    (mergedMet : ∀ media ∈ merged, media.Meets demand) :
    ∀ media ∈ items.foldl addItem merged, media.Meets demand := by
  induction items generalizing merged with
  | nil => exact mergedMet
  | cons item items inductionHypothesis =>
      obtain ⟨itemMet, itemsMet⟩ := met
      refine inductionHypothesis itemsMet ?_
      cases item with
      | rule rule => exact mergedMet
      | statement name prelude => exact mergedMet
      | descriptors name prelude declarations => exact mergedMet
      | group name query inner =>
          rw [addItem]
          split
          · next media =>
              subst media
              exact meets_of_mem_addMedia stable itemMet mergedMet
          · exact mergedMet

/-- Merged items go on to meet a stable demand. -/
theorem allMeet_mergeMediaQueries
    (stable : demand.IsStable)
    {items : List Css.Item}
    (met : Css.AllMeet demand items) :
    Css.AllMeet demand (mergeMediaQueries items) := by
  have noneYet : ∀ media ∈ ([] : List Media), media.Meets demand := by simp
  have mergedMet := meets_of_mem_foldl_addItem stable met noneYet
  refine Css.allMeet_iff.mpr fun item member => ?_
  rcases List.mem_append.mp member with other | inMerged
  · exact Css.allMeet_iff.mp met item (List.mem_of_mem_filter other)
  · obtain ⟨media, present, rfl⟩ := List.mem_map.mp inMerged
    exact mergedMet media present

end Demands

end Style
end MailPress
