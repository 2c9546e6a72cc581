import JavaResources.Toml.Document

/-!
# Tables have different keys

A table is a list of entries, and `Document.ofText_distinct` says that it can be read as a map: in a
document no two entries of a table have the same key, whether the table was written between braces,
by dotted keys or by headers, and however deep it is.
-/

namespace JavaResources.Toml

variable {σ τ : Type}

/-- In all tables of a value the entries have different keys. -/
inductive Value.Distinct : Value σ → Prop where
  | string (text : String) : Distinct (.string text)
  | bare (content : σ) : Distinct (.bare content)
  | array (origin : Array.Origin) {items : List (Node σ)}
      (h : ∀ node ∈ items, node.value.Distinct) : Distinct (.array origin items)
  | table (origin : Table.Origin) {entries : List (Entry σ)}
      (hkeys : (entries.map fun entry => entry.key.name).Nodup)
      (hvalues : ∀ entry ∈ entries, entry.node.value.Distinct) : Distinct (.table origin entries)

/-- Entries have different keys, and in all tables of their values the entries have too. -/
structure Entry.Distinct (entries : List (Entry σ)) : Prop where
  keys : (entries.map fun entry => entry.key.name).Nodup
  values : ∀ entry ∈ entries, entry.node.value.Distinct

/-- The entries of a table are distinct exactly if the table is. -/
theorem Value.distinct_table_iff {origin : Table.Origin} {entries : List (Entry σ)} :
    (Value.table origin entries).Distinct ↔ Entry.Distinct entries := by
  constructor
  · intro h
    cases h with
    | table _ hkeys hvalues => exact ⟨hkeys, hvalues⟩
  · exact fun h => .table origin h.keys h.values

/-- The items of an array are distinct exactly if the array is. -/
theorem Value.distinct_array_iff {origin : Array.Origin} {items : List (Node σ)} :
    (Value.array origin items).Distinct ↔ ∀ node ∈ items, node.value.Distinct := by
  constructor
  · intro h
    cases h with
    | array _ h => exact h
  · exact .array origin

/-! ## Entries -/

namespace Entry

/-- There is no value under a name exactly if no entry has the name. -/
theorem find?_eq_none_iff {entries : List (Entry σ)} {name : String} :
    find? entries name = none ↔ name ∉ entries.map fun entry => entry.key.name := by
  simp [find?]

/-- A value under a name belongs to an entry. -/
theorem exists_mem_of_find?_eq_some {entries : List (Entry σ)} {name : String} {node : Node σ}
    (h : find? entries name = some node) : ∃ entry ∈ entries, entry.node = node := by
  obtain ⟨entry, hentry, rfl⟩ := Option.map_eq_some_iff.1 h
  exact ⟨entry, List.mem_of_find?_eq_some hentry, rfl⟩

namespace Distinct

variable {entries : List (Entry σ)}

theorem nil : Distinct ([] : List (Entry σ)) :=
  ⟨List.nodup_nil, List.forall_mem_nil _⟩

/-- A value under a name is distinct. -/
theorem find? (h : Distinct entries) {name : String} {node : Node σ}
    (hnode : Entry.find? entries name = some node) : node.value.Distinct := by
  obtain ⟨entry, hentry, rfl⟩ := exists_mem_of_find?_eq_some hnode
  exact h.values entry hentry

/-- An entry with a new name may be added. -/
theorem concat (h : Distinct entries) {entry : Entry σ}
    (hname : Entry.find? entries entry.key.name = none) (hvalue : entry.node.value.Distinct) :
    Distinct (entries ++ [entry]) := by
  rw [find?_eq_none_iff] at hname
  constructor
  · rw [List.map_append, List.map_singleton]
    refine List.nodup_append.2 ⟨h.keys, by simp, fun other hother last hlast heq => ?_⟩
    exact hname (List.mem_singleton.1 hlast ▸ heq ▸ hother)
  · intro other hother
    rw [List.mem_append, List.mem_singleton] at hother
    rcases hother with hother | rfl
    · exact h.values other hother
    · exact hvalue

/-- Entries may be changed one by one if they keep their names. -/
theorem map (h : Distinct entries) {change : Entry σ → Entry σ}
    (hname : ∀ entry, (change entry).key.name = entry.key.name)
    (hvalue : ∀ entry ∈ entries, (change entry).node.value.Distinct) :
    Distinct (entries.map change) := by
  constructor
  · simpa only [List.map_map, Function.comp_def, hname] using h.keys
  · exact List.forall_mem_map.2 hvalue

/-- The value under a name may be renewed. -/
theorem renew (h : Distinct entries) (name : String) {node : Node σ}
    (hnode : node.value.Distinct) : Distinct (Entry.renew entries name node) := by
  refine h.map (fun entry => ?_) fun entry hentry => ?_
  · split <;> rfl
  · split
    · exact hnode
    · exact h.values entry hentry

/-- An entry may be replaced by another one with its name. -/
theorem replace (h : Distinct entries) {changed : Entry σ}
    (hchanged : changed.node.value.Distinct) : Distinct (Entry.replace entries changed) := by
  refine h.map (fun entry => ?_) fun entry hentry => ?_
  · split
    · next hname => exact hname.symm
    · rfl
  · split
    · exact hchanged
    · exact h.values entry hentry

end Distinct

end Entry

/-! ## Tables -/

/-- What is right, if anything, has a property. -/
def Ensured {α : Type} (P : α → Prop) (content : Except Flaw α) : Prop :=
  ∀ value, content = .ok value → P value

section Ensured

variable {α β : Type} {P : α → Prop} {Q : β → Prop}

theorem Ensured.error (flaw : Flaw) : Ensured P (.error flaw) := nofun

theorem Ensured.ok {value : α} (h : P value) : Ensured P (.ok value) := by
  rintro other ⟨⟩
  exact h

/-- Anything may be right where it does not matter. -/
theorem Ensured.trivial (content : Except Flaw α) : Ensured (fun _ => True) content :=
  fun _ _ => .intro

/-- A change of what is right. -/
theorem Ensured.map {content : Except Flaw α} {change : α → β} (h : Ensured P content)
    (hchange : ∀ value, P value → Q (change value)) : Ensured Q (content.map change) := by
  cases content with
  | error flaw => exact .error flaw
  | ok value => exact .ok (hchange value (h value rfl))

/-- A step that goes on with what is right. -/
theorem Ensured.bind {content : Except Flaw α} {next : α → Except Flaw β} (h : Ensured P content)
    (hnext : ∀ value, P value → Ensured Q (next value)) : Ensured Q (content.bind next) := by
  cases content with
  | error flaw => exact .error flaw
  | ok value => exact hnext value (h value rfl)

/-- What all steps keep is kept by steps one after the other. -/
theorem Ensured.foldlM {step : β → α → Except Flaw β} {items : List α}
    (hstep : ∀ item ∈ items, ∀ state, Q state → Ensured Q (step state item)) {start : β}
    (hstart : Q start) : Ensured Q (items.foldlM step start) := by
  induction items generalizing start with
  | nil => exact .ok hstart
  | cons item others ih =>
      rw [List.foldlM_cons]
      refine (hstep item List.mem_cons_self start hstart).bind fun state hstate => ?_
      exact ih (fun other hother => hstep other (List.mem_cons_of_mem item hother)) hstate

end Ensured

/-- A change leaves distinct entries distinct. -/
def Change.KeepsDistinct (change : Change σ) : Prop :=
  ∀ origin entries, Entry.Distinct entries → Ensured Entry.Distinct (change origin entries)

/-- The last item of an array is changed like a table. -/
theorem changeLast_distinct {change : Change σ} (hchange : change.KeepsDistinct)
    {items : List (Node σ)} (h : ∀ node ∈ items, node.value.Distinct) :
    Ensured (fun changed => ∀ node ∈ changed, node.value.Distinct) (changeLast change items) := by
  fun_induction changeLast change items with
  | case1 => exact .error _
  | case2 span origin entries =>
      have hentries := Value.distinct_table_iff.1 (h _ List.mem_cons_self)
      refine (hchange origin entries hentries).map fun changed hchanged => ?_
      exact List.forall_mem_singleton.2 (Value.distinct_table_iff.2 hchanged)
  | case3 => exact .error _
  | case4 node others _ _ ih =>
      have hothers := ih fun other hother => h other (List.mem_cons_of_mem node hother)
      exact hothers.map fun changed hchanged =>
        List.forall_mem_cons.2 ⟨h node List.mem_cons_self, hchanged⟩

/-- A table at the end of a path is changed like a table on its own. -/
theorem changeAt_keepsDistinct (step : Step) {change : Change σ} (hchange : change.KeepsDistinct)
    (path : List Key) : Change.KeepsDistinct (changeAt step change path) := by
  induction path with
  | nil => exact hchange
  | cons key path ih =>
      intro origin entries h
      rw [changeAt]
      split
      · next hnone =>
          refine (ih step.origin [] .nil).map fun inner hinner => ?_
          exact h.concat hnone (Value.distinct_table_iff.2 hinner)
      · next span origin inner hfound =>
          have hinner := Value.distinct_table_iff.1 (h.find? hfound)
          split
          · refine (ih origin inner hinner).map fun changed hchanged => ?_
            exact h.renew key.name (Value.distinct_table_iff.2 hchanged)
          · exact .error _
      · next span items hfound =>
          have hitems := Value.distinct_array_iff.1 (h.find? hfound)
          refine (changeLast_distinct ih hitems).map fun changed hchanged => ?_
          exact h.renew key.name (Value.distinct_array_iff.2 hchanged)
      · exact .error _

/-- An entry is added to distinct entries only if its key is new. -/
theorem addEntry_distinct {entries : List (Entry σ)} (h : Entry.Distinct entries)
    {entry : Entry σ} (hvalue : entry.node.value.Distinct) :
    Ensured Entry.Distinct (addEntry entries entry) := by
  unfold addEntry
  split
  · next hnone => exact .ok (h.concat hnone hvalue)
  · exact .error _

/-- The value of an assignment is distinct. -/
def Assignment.Distinct (assignment : Assignment σ) : Prop :=
  assignment.node.value.Distinct

/-- Giving a key its value leaves entries distinct. -/
theorem assign_distinct {entries : List (Entry σ)} (h : Entry.Distinct entries)
    {assignment : Assignment σ} (hvalue : assignment.Distinct) :
    Ensured Entry.Distinct (assign entries assignment) := by
  unfold assign
  split
  · exact addEntry_distinct h hvalue
  · refine changeAt_keepsDistinct .key (fun origin inner hinner => ?_) _ .header entries h
    split
    · exact addEntry_distinct hinner hvalue
    · exact .error _

/-- Assignments one after the other leave entries distinct. -/
theorem assignAll_distinct {entries : List (Entry σ)} (h : Entry.Distinct entries)
    {assignments : List (Except Flaw (Assignment σ))}
    (hvalues : ∀ assignment ∈ assignments, Ensured Assignment.Distinct assignment) :
    Ensured Entry.Distinct (assignAll entries assignments) :=
  .foldlM (fun assignment hassignment _ hentries =>
    (hvalues assignment hassignment).bind fun _ => assign_distinct hentries) h

/-! ## Sections -/

/-- The table of a single header is put among distinct entries. -/
theorem Header.openTable_keepsDistinct (header : Header)
    {assignments : List (Except Flaw (Assignment BareText))}
    (hvalues : ∀ assignment ∈ assignments, Ensured Assignment.Distinct assignment) :
    Change.KeepsDistinct fun _ parent => header.openTable assignments parent := by
  intro _ parent h
  show Ensured Entry.Distinct (header.openTable assignments parent)
  simp only [openTable]
  split
  · next hnone =>
      refine (assignAll_distinct .nil hvalues).map fun inner hinner => ?_
      exact h.concat hnone (Value.distinct_table_iff.2 hinner)
  · next span inner hfound =>
      have hinner := Value.distinct_table_iff.1 (h.find? hfound)
      refine (assignAll_distinct hinner hvalues).map fun changed hchanged => ?_
      exact h.replace (Value.distinct_table_iff.2 hchanged)
  · exact .error _

/-- The table of a double header is added among distinct entries. -/
theorem Header.pushTable_keepsDistinct (header : Header) {inner : List (Entry BareText)}
    (hinner : Entry.Distinct inner) :
    Change.KeepsDistinct fun _ parent => header.pushTable inner parent := by
  intro _ parent h
  have hnode : (header.node inner).value.Distinct := Value.distinct_table_iff.2 hinner
  show Ensured Entry.Distinct (header.pushTable inner parent)
  simp only [pushTable]
  split
  · next hnone =>
      have hitems : ∀ node ∈ [header.node inner], node.value.Distinct :=
        List.forall_mem_singleton.2 hnode
      exact .ok (h.concat hnone (Value.distinct_array_iff.2 hitems))
  · next span items hfound =>
      have hitems := Value.distinct_array_iff.1 (h.find? hfound)
      refine .ok (h.renew header.key.last.name (Value.distinct_array_iff.2 fun node hnode' => ?_))
      rw [List.mem_append, List.mem_singleton] at hnode'
      rcases hnode' with hnode' | rfl
      · exact hitems node hnode'
      · exact hnode
  · exact .error _

/-- A section leaves the entries of the top-level table distinct. -/
theorem Section.addTo_distinct {root : List (Entry BareText)} (h : Entry.Distinct root)
    {part : Section}
    (hvalues : ∀ assignment ∈ part.assignments, Ensured Assignment.Distinct assignment) :
    Ensured Entry.Distinct (part.addTo root) := by
  refine (Ensured.trivial part.header).bind fun header _ => ?_
  split
  · refine (assignAll_distinct .nil hvalues).bind fun inner hinner => ?_
    exact changeAt_keepsDistinct .header (header.pushTable_keepsDistinct hinner) _ .header root h
  · exact changeAt_keepsDistinct .header (header.openTable_keepsDistinct hvalues) _ .header root h

/-- The values in a statement are distinct. -/
def Statement.Distinct : Statement → Prop
  | .header _ => True
  | .assignment content => Ensured Assignment.Distinct content

/-- The assignments of sections are those of the statements. -/
theorem sections_distinct {statements : List Statement} (h : ∀ part ∈ statements, part.Distinct) :
    (∀ assignment ∈ (sections statements).1, Ensured Assignment.Distinct assignment) ∧
      ∀ part ∈ (sections statements).2, ∀ assignment ∈ part.assignments,
        Ensured Assignment.Distinct assignment := by
  induction statements with
  | nil => exact ⟨List.forall_mem_nil _, List.forall_mem_nil _⟩
  | cons first others ih =>
      obtain ⟨hown, hparts⟩ := ih fun other hother => h other (List.mem_cons_of_mem first hother)
      cases first with
      | header header => exact ⟨List.forall_mem_nil _, List.forall_mem_cons.2 ⟨hown, hparts⟩⟩
      | assignment assignment =>
          exact ⟨List.forall_mem_cons.2 ⟨h _ List.mem_cons_self, hown⟩, hparts⟩

/-- The entries that statements make are distinct. -/
theorem Document.entriesOf_distinct {statements : List Statement}
    (h : ∀ part ∈ statements, part.Distinct) : Ensured Entry.Distinct (entriesOf statements) := by
  obtain ⟨hown, hparts⟩ := sections_distinct h
  refine (assignAll_distinct .nil hown).bind fun root hroot => ?_
  exact .foldlM (fun part hpart _ hentries => Section.addTo_distinct hentries (hparts part hpart))
    hroot

end JavaResources.Toml
