import JavaResources.Proofs.Toml.ReadDistinct
import JavaResources.Style.Source

/-!
# Documents that give a style

`Style.GivenBy` tells which entries give which style, without an order of the entries and without
saying how they are looked at. `ofDocument_eq_ok_iff` says that a document with different keys gives
that style and no other, and `readFileText_eq_ok_iff` says the same of all texts, with any reader of
documents whose keys are different.
-/

namespace JavaResources.Style

open Toml

/-- A change of what is right gives a result exactly if it is the change of something right. -/
theorem map_eq_ok_iff {ε α β : Type} {content : Except ε α} {change : α → β} {result : β} :
    content.map change = .ok result ↔ ∃ value, content = .ok value ∧ change value = result := by
  cases content <;> simp [Except.map]

/-- A step behind what is right gives a result exactly if it does so from something right. -/
theorem bind_eq_ok_iff {ε α β : Type} {content : Except ε α} {next : α → Except ε β} {result : β} :
    content >>= next = .ok result ↔ ∃ value, content = .ok value ∧ next value = .ok result := by
  cases content <;> simp [bind, Except.bind]

theorem toOption_eq_some_iff {ε α : Type} {content : Except ε α} {value : α} :
    content.toOption = some value ↔ content = .ok value := by
  cases content <;> simp [Except.toOption]

/-! ## Values -/

/-- The values that say whether fields are final: the booleans. -/
inductive Flags : Value Scalar → Bool → Prop where
  | boolean (flag : Bool) : Flags (.bare (.boolean flag)) flag

/-- The values that are an indentation: the string `tab`, and tables with one entry, which is a
number of spaces that fits into a byte, or for a tab an empty table or array. -/
inductive Indents : Value Scalar → Indentation → Prop where
  | tab : Indents (.string "tab") .tab
  | spaces (origin : Table.Origin) (key span : Span) (width : UInt8) :
    Indents (.table origin [⟨⟨"spaces", key⟩, ⟨span, .bare (.integer width.toNat)⟩⟩])
      (.spaces width)
  | emptyTable (origin inner : Table.Origin) (key span : Span) :
    Indents (.table origin [⟨⟨"tab", key⟩, ⟨span, .table inner []⟩⟩]) .tab
  | emptyArray (origin : Table.Origin) (inner : Array.Origin) (key span : Span) :
    Indents (.table origin [⟨⟨"tab", key⟩, ⟨span, .array inner []⟩⟩]) .tab

/-- A flag is read exactly if the value is one. -/
theorem readFlag_eq_ok_iff {node : Node Scalar} {flag : Bool} :
    readFlag node = .ok flag ↔ Flags node.value flag := by
  obtain ⟨span, value⟩ := node
  constructor
  · intro h
    unfold readFlag at h
    split at h
    · next found hvalue =>
      obtain rfl := Except.ok.inj h
      exact hvalue ▸ .boolean found
    · cases h
  · intro h
    cases h
    rfl

/-- A number of spaces is read exactly if it is an integer that fits into a byte. -/
theorem readWidth_eq_ok_iff {node : Node Scalar} {width : UInt8} :
    readWidth node = .ok width ↔ node.value = .bare (.integer width.toNat) := by
  unfold readWidth
  constructor
  · intro h
    split at h
    · next number hvalue =>
      split at h
      · next hrange =>
        obtain rfl := Except.ok.inj h
        have hnumber : ((UInt8.ofNat number.toNat).toNat : Int) = number := by
          rw [UInt8.toNat_ofNat', Nat.mod_eq_of_lt (by omega)]
          omega
        rw [hvalue, hnumber]
      · cases h
    · cases h
  · intro h
    have hrange : (0 : Int) ≤ width.toNat ∧ (width.toNat : Int) < 256 := by
      have := width.toNat_lt
      omega
    simp only [h, if_pos hrange, Int.toNat_natCast, UInt8.ofNat_toNat]

/-- The value of a tab is read exactly if it is an empty table or an empty array. -/
theorem readNothing_eq_ok_iff {node : Node Scalar} :
    readNothing node = .ok () ↔
      (∃ origin, node.value = .table origin []) ∨ ∃ origin, node.value = .array origin [] := by
  obtain ⟨span, value⟩ := node
  constructor
  · intro h
    unfold readNothing at h
    split at h
    · next origin hvalue => exact .inl ⟨origin, hvalue⟩
    · cases h
    · next origin hvalue => exact .inr ⟨origin, hvalue⟩
    · cases h
    · cases h
  · rintro (⟨origin, rfl⟩ | ⟨origin, rfl⟩) <;> rfl

/-- The entry of a table is read exactly if the table is an indentation. -/
theorem readIndentationEntry_eq_ok_iff {entry : Entry Scalar} {indentation : Indentation}
    (origin : Table.Origin) :
    readIndentationEntry entry = .ok indentation ↔ Indents (.table origin [entry]) indentation := by
  obtain ⟨⟨name, key⟩, span, value⟩ := entry
  constructor
  · intro h
    unfold readIndentationEntry at h
    split at h
    · next hname =>
      obtain rfl : name = "spaces" := hname
      obtain ⟨width, hwidth, rfl⟩ := map_eq_ok_iff.1 h
      obtain rfl : value = _ := readWidth_eq_ok_iff.1 hwidth
      exact .spaces origin key span width
    · split at h
      · next hname =>
        obtain rfl : name = "tab" := hname
        obtain ⟨_, hnothing, rfl⟩ := map_eq_ok_iff.1 h
        obtain ⟨inner, hvalue⟩ | ⟨inner, hvalue⟩ := readNothing_eq_ok_iff.1 hnothing
        · obtain rfl : value = _ := hvalue
          exact .emptyTable origin inner key span
        · obtain rfl : value = _ := hvalue
          exact .emptyArray origin inner key span
      · cases h
  · intro h
    cases h with
    | spaces _ _ _ width =>
        rw [readIndentationEntry, if_pos rfl, readWidth_eq_ok_iff.2 rfl]
        rfl
    | emptyTable => rfl
    | emptyArray => rfl

/-- An indentation is read exactly if the value is one. -/
theorem readIndentation_eq_ok_iff {node : Node Scalar} {indentation : Indentation} :
    readIndentation node = .ok indentation ↔ Indents node.value indentation := by
  obtain ⟨span, value⟩ := node
  constructor
  · intro h
    unfold readIndentation at h
    split at h
    · next name hvalue =>
      split at h
      · next hname =>
        obtain rfl := Except.ok.inj h
        exact hvalue ▸ hname ▸ .tab
      · split at h <;> cases h
    · cases h
    · next origin entry hvalue =>
      exact hvalue ▸ (readIndentationEntry_eq_ok_iff origin).1 h
    · cases h
    · cases h
  · intro h
    cases h with
    | tab => rfl
    | spaces origin key _ width =>
        exact (readIndentationEntry_eq_ok_iff origin).2 (.spaces ..)
    | emptyTable => rfl
    | emptyArray => rfl

/-! ## Entries -/

/-- A part of a style has its default if no entry has its name, and else it is what an entry of that
name gives. -/
inductive Part {α : Type} (gives : Value Scalar → α → Prop) (name : String)
    (entries : List (Entry Scalar)) (default : α) : α → Prop where
  | absent (h : ∀ entry ∈ entries, entry.key.name ≠ name) : Part gives name entries default default
  | present {entry : Entry Scalar} {result : α} (hmem : entry ∈ entries)
    (hname : entry.key.name = name) (h : gives entry.node.value result) :
    Part gives name entries default result

/-- Entries give a style: they are known, and each part of the style is given by the entry with its
name. -/
structure GivenBy (style defaults : Style) (entries : List (Entry Scalar)) : Prop where
  known : ∀ entry ∈ entries, entry.key.name = "use_final" ∨ entry.key.name = "indent"
  finalFields : Part Flags "use_final" entries defaults.finalFields style.finalFields
  indentation : Part Indents "indent" entries defaults.indentation style.indentation

section Part

variable {α : Type} {gives : Value Scalar → α → Prop} {name : String} {entry : Entry Scalar}
  {entries : List (Entry Scalar)} {default result : α}

/-- A part of which no entry has the name has its default. -/
theorem Part.iff_default (h : ∀ entry ∈ entries, entry.key.name ≠ name) :
    Part gives name entries default result ↔ result = default := by
  constructor
  · rintro (_ | ⟨hmem, hname, -⟩)
    · rfl
    · exact absurd hname (h _ hmem)
  · rintro rfl
    exact .absent h

/-- The only entry with the name of a part gives the part, as a default for the other entries. -/
theorem Part.cons_of_eq (hname : entry.key.name = name)
    (h : ∀ other ∈ entries, other.key.name ≠ name) :
    Part gives name (entry :: entries) default result ↔
      ∃ value, gives entry.node.value value ∧ Part gives name entries value result := by
  simp only [iff_default h, exists_eq_right']
  constructor
  · rintro (habsent | ⟨hmem, hother, hgives⟩)
    · exact absurd hname (habsent entry List.mem_cons_self)
    · rcases List.mem_cons.1 hmem with rfl | hmem
      · exact hgives
      · exact absurd hother (h _ hmem)
  · exact .present List.mem_cons_self hname

/-- Entries of other names do not matter for a part. -/
theorem Part.cons_of_ne (hname : entry.key.name ≠ name) :
    Part gives name (entry :: entries) default result ↔ Part gives name entries default result := by
  constructor
  · rintro (habsent | ⟨hmem, hother, hgives⟩)
    · exact .absent (List.forall_mem_cons.1 habsent).2
    · rcases List.mem_cons.1 hmem with rfl | hmem
      · exact absurd hother hname
      · exact .present hmem hother hgives
  · rintro (habsent | ⟨hmem, hother, hgives⟩)
    · exact .absent (List.forall_mem_cons.2 ⟨hname, habsent⟩)
    · exact .present (List.mem_cons_of_mem entry hmem) hother hgives

/-- The order of the entries does not matter for a part. -/
theorem Part.perm {others : List (Entry Scalar)} (hperm : entries.Perm others)
    (h : Part gives name entries default result) : Part gives name others default result := by
  cases h with
  | absent h => exact .absent fun entry hentry => h entry (hperm.mem_iff.2 hentry)
  | present hmem hname h => exact .present (hperm.mem_iff.1 hmem) hname h

end Part

/-- The order of the entries does not matter. -/
theorem GivenBy.perm {style defaults : Style} {entries others : List (Entry Scalar)}
    (hperm : entries.Perm others) (h : style.GivenBy defaults entries) :
    style.GivenBy defaults others where
  known entry hentry := h.known entry (hperm.mem_iff.2 hentry)
  finalFields := h.finalFields.perm hperm
  indentation := h.indentation.perm hperm

/-- No entries give the defaults. -/
theorem givenBy_nil {style defaults : Style} : style.GivenBy defaults [] ↔ defaults = style := by
  constructor
  · intro h
    obtain ⟨finalFields, indentation⟩ := style
    obtain rfl : finalFields = defaults.finalFields :=
      (Part.iff_default (List.forall_mem_nil _)).1 h.finalFields
    obtain rfl : indentation = defaults.indentation :=
      (Part.iff_default (List.forall_mem_nil _)).1 h.indentation
    rfl
  · rintro rfl
    exact ⟨List.forall_mem_nil _, .absent (List.forall_mem_nil _), .absent (List.forall_mem_nil _)⟩

/-- An entry with a new name is read, as a change of the defaults for the other entries, exactly if
it gives a part of a style. -/
theorem exists_readEntry_iff {style defaults : Style} {entry : Entry Scalar}
    {entries : List (Entry Scalar)} (hnew : ∀ other ∈ entries, other.key.name ≠ entry.key.name) :
    (∃ changed, readEntry defaults entry = .ok changed ∧ style.GivenBy changed entries)
      ↔ style.GivenBy defaults (entry :: entries) := by
  unfold readEntry
  split
  · next hname =>
    rw [hname] at hnew
    have hother : entry.key.name ≠ "indent" := by
      rw [hname]
      decide
    constructor
    · rintro ⟨changed, hread, h⟩
      obtain ⟨flag, hflag, rfl⟩ := map_eq_ok_iff.1 hread
      exact ⟨List.forall_mem_cons.2 ⟨.inl hname, h.known⟩,
        (Part.cons_of_eq hname hnew).2 ⟨flag, readFlag_eq_ok_iff.1 hflag, h.finalFields⟩,
        (Part.cons_of_ne hother).2 h.indentation⟩
    · intro h
      obtain ⟨flag, hflag, hrest⟩ := (Part.cons_of_eq hname hnew).1 h.finalFields
      exact ⟨_, map_eq_ok_iff.2 ⟨flag, readFlag_eq_ok_iff.2 hflag, rfl⟩,
        (List.forall_mem_cons.1 h.known).2, hrest, (Part.cons_of_ne hother).1 h.indentation⟩
  · next hother =>
    split
    · next hname =>
      rw [hname] at hnew
      constructor
      · rintro ⟨changed, hread, h⟩
        obtain ⟨unit, hunit, rfl⟩ := map_eq_ok_iff.1 hread
        exact ⟨List.forall_mem_cons.2 ⟨.inr hname, h.known⟩,
          (Part.cons_of_ne hother).2 h.finalFields,
          (Part.cons_of_eq hname hnew).2 ⟨unit, readIndentation_eq_ok_iff.1 hunit, h.indentation⟩⟩
      · intro h
        obtain ⟨unit, hunit, hrest⟩ := (Part.cons_of_eq hname hnew).1 h.indentation
        exact ⟨_, map_eq_ok_iff.2 ⟨unit, readIndentation_eq_ok_iff.2 hunit, rfl⟩,
          (List.forall_mem_cons.1 h.known).2, (Part.cons_of_ne hother).1 h.finalFields, hrest⟩
    · next hunknown =>
      constructor
      · rintro ⟨_, hread, -⟩
        cases hread
      · intro h
        exact absurd (h.known entry List.mem_cons_self) (not_or.2 ⟨hother, hunknown⟩)

/-- Entries with different keys are read, in any order, exactly if they give a style. -/
theorem foldlM_readEntry_eq_ok_iff {entries : List (Entry Scalar)} {style defaults : Style}
    (hkeys : (entries.map fun entry => entry.key.name).Nodup) :
    entries.foldlM readEntry defaults = .ok style ↔ style.GivenBy defaults entries := by
  induction entries generalizing defaults with
  | nil =>
      rw [givenBy_nil]
      exact ⟨Except.ok.inj, congrArg Except.ok⟩
  | cons entry others ih =>
      rw [List.map_cons, List.nodup_cons] at hkeys
      have hnew : ∀ other ∈ others, other.key.name ≠ entry.key.name := fun other hother heq =>
        hkeys.1 (List.mem_map.2 ⟨other, hother, heq⟩)
      -- What the first entry gives is a default for the others, which have other names.
      rw [List.foldlM_cons, bind_eq_ok_iff, ← exists_readEntry_iff hnew]
      simp only [ih hkeys.2]

/-- A document with different keys is read exactly if its entries give a style. -/
theorem ofDocument_eq_ok_iff {document : Document} {style : Style}
    (hkeys : (document.entries.map fun entry => entry.key.name).Nodup) :
    ofDocument document = .ok style ↔ style.GivenBy {} document.entries := by
  have hperm : (inKeyOrder document.entries).Perm document.entries := List.mergeSort_perm _ _
  rw [ofDocument, foldlM_readEntry_eq_ok_iff ((hperm.map _).nodup_iff.2 hkeys)]
  exact ⟨.perm hperm, .perm hperm.symm⟩

/-! ## Texts -/

variable {read : Reader}

/-- A text gives a style exactly if it is a document whose entries give the style. -/
theorem readText_eq_ok_iff (hread : read.DistinctKeys) {text : String} {style : Style} :
    readText read text = .ok style ↔
      ∃ document, read text = .ok document ∧ style.GivenBy {} document.entries := by
  unfold readText
  cases hdocument : read text with
  | error flaw => simp
  | ok document =>
    simp only [Except.ok.injEq, exists_eq_left',
      ← ofDocument_eq_ok_iff (hread text document hdocument)]
    cases ofDocument document with
    | error found => simp
    | ok found => simp

/-- A text from a file gives the style that it gives without the file. -/
theorem readFileText_eq_ok_iff_readText {file text : String} {style : Style} :
    readFileText read file text = .ok style ↔ readText read text = .ok style := by
  unfold readFileText
  split
  · next found hfound => rw [hfound]; simp
  · next problem hproblem => simp [hproblem]

/-- With any reader of documents whose keys are different, a text gives a style exactly if it is a
document whose entries give the style, where fields are final and indented by two spaces unless told
otherwise. Every other text is invalid, whatever the name of its file is. A text that comes from no
file gives the same style. -/
theorem readFileText_eq_ok_iff (hread : read.DistinctKeys) (file text : String) :
    (∀ style, readFileText read file text = .ok style ↔
      ∃ document, read text = .ok document ∧
        style.GivenBy ⟨true, .spaces 2⟩ document.entries) ∧
    ((¬ ∃ style, readFileText read file text = .ok style) ↔
      ∃ problem, readFileText read file text = .error (.invalid file problem)) ∧
    (∀ style, readUnnamedText read text = .ok style ↔ readFileText read file text = .ok style) := by
  refine ⟨fun style => ?_, ?_, fun style => ?_⟩
  · rw [readFileText_eq_ok_iff_readText, readText_eq_ok_iff hread]
    rfl
  · unfold readFileText
    split
    · simp
    · simp
  · rw [readUnnamedText, readFileText_eq_ok_iff_readText, readFileText_eq_ok_iff_readText]

/-- The reader of this library gives different keys, and with it a text whose table is in braces
gives the style that it says. A number of spaces that does not fit into a byte makes a text
invalid. -/
theorem readFileText_eq_ok_iff_spaces :
    let written := "use_final = false\nindent = \x7b spaces = 4 \x7d\n"
    let tooWide := "indent.spaces = 256"
    Reader.DistinctKeys Document.ofText ∧
      (∃ document, Document.ofText written = .ok document ∧
        GivenBy ⟨false, .spaces 4⟩ ⟨true, .spaces 2⟩ document.entries) ∧
      readFileText Document.ofText "a.toml" written = .ok ⟨false, .spaces 4⟩ ∧
      ∃ problem,
        readFileText Document.ofText "a.toml" tooWide = .error (.invalid "a.toml" problem) := by
  intro written tooWide
  have hread := Document.distinctKeys_ofText
  have hentries : ((Document.ofText written).toOption.bind fun document =>
      (document.entries.foldlM readEntry ⟨true, .spaces 2⟩).toOption)
        = some ⟨false, .spaces 4⟩ := by decide +kernel
  have htooWide : (readFileText Document.ofText "a.toml" tooWide).toOption = none := by
    decide +kernel
  obtain ⟨hwritten, -⟩ := readFileText_eq_ok_iff hread "a.toml" written
  obtain ⟨-, hinvalid, -⟩ := readFileText_eq_ok_iff hread "a.toml" tooWide
  obtain ⟨document, hdocument, hstyle⟩ := Option.bind_eq_some_iff.1 hentries
  rw [toOption_eq_some_iff] at hdocument hstyle
  have hgiven := (foldlM_readEntry_eq_ok_iff (hread written document hdocument)).1 hstyle
  refine ⟨hread, ⟨document, hdocument, hgiven⟩, (hwritten _).2 ⟨document, hdocument, hgiven⟩,
    hinvalid.1 ?_⟩
  rintro ⟨style, hstyle⟩
  rw [hstyle] at htooWide
  cases htooWide

end JavaResources.Style
