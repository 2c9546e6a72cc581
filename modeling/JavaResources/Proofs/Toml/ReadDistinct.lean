import JavaResources.Proofs.Toml.DistinctKeys

/-!
# Documents have different keys

Whatever is read from a text has tables with different keys only: a table in braces that gives a key
twice is flawed, and so is a document. Every part of the reader is looked at by what it may give,
and `Document.ofText_distinct` is the statement about the whole text. So the reader of this library
keeps the rule that `Reader.DistinctKeys` asks of a reader.
-/

namespace JavaResources.Toml

/-! ## Bare values -/

section Change

variable {σ τ : Type} {change : σ → Option τ}

/-- Changing the bare values of entries leaves the keys as they are. -/
theorem Entry.keys_of_changeAll? {entries : List (Entry σ)} {changed : List (Entry τ)}
    (h : changeAll? change entries = some changed) :
    (changed.map fun entry => entry.key.name) = entries.map fun entry => entry.key.name := by
  induction entries generalizing changed with
  | nil =>
      obtain rfl : [] = changed := Option.some.inj h
      rfl
  | cons entry others ih =>
      obtain ⟨key, span, value⟩ := entry
      simp only [changeAll?, Option.bind_eq_bind, Option.bind_eq_some_iff] at h
      obtain ⟨value, -, rest, hrest, h⟩ := h
      obtain rfl := Option.some.inj h
      rw [List.map_cons, List.map_cons, ih hrest]

mutual

/-- Changing its bare values leaves a value distinct. -/
theorem Value.distinct_of_change? : (value : Value σ) → {changed : Value τ} →
    value.Distinct → value.change? change = some changed → changed.Distinct
  | .string text, _, _, h => by
    obtain rfl := Option.some.inj h
    exact .string text
  | .bare content, _, _, h => by
    obtain ⟨scalar, -, rfl⟩ := Option.map_eq_some_iff.1 h
    exact .bare scalar
  | .array origin items, _, hdistinct, h => by
    obtain ⟨changed, hchanged, rfl⟩ := Option.map_eq_some_iff.1 h
    exact .array origin
      (Node.distinct_of_changeAll? items (Value.distinct_array_iff.1 hdistinct) hchanged)
  | .table origin entries, _, hdistinct, h => by
    obtain ⟨changed, hchanged, rfl⟩ := Option.map_eq_some_iff.1 h
    have hentries := Value.distinct_table_iff.1 hdistinct
    refine .table origin ?_ (Entry.distinct_of_changeAll? entries hentries.values hchanged)
    rw [Entry.keys_of_changeAll? hchanged]
    exact hentries.keys

/-- Changing their bare values leaves items distinct. -/
theorem Node.distinct_of_changeAll? : (items : List (Node σ)) → {changed : List (Node τ)} →
    (∀ node ∈ items, node.value.Distinct) → Node.changeAll? change items = some changed →
      ∀ node ∈ changed, node.value.Distinct
  | [], _, _, h => by
    obtain rfl := Option.some.inj h
    exact List.forall_mem_nil _
  | ⟨span, value⟩ :: others, _, hdistinct, h => by
    obtain ⟨hvalue, hothers⟩ := List.forall_mem_cons.1 hdistinct
    simp only [Node.changeAll?, Option.bind_eq_bind, Option.bind_eq_some_iff] at h
    obtain ⟨changed, hchanged, rest, hrest, h⟩ := h
    obtain rfl := Option.some.inj h
    exact List.forall_mem_cons.2 ⟨value.distinct_of_change? hvalue hchanged,
      Node.distinct_of_changeAll? others hothers hrest⟩

/-- Changing their bare values leaves the values of entries distinct. -/
theorem Entry.distinct_of_changeAll? : (entries : List (Entry σ)) → {changed : List (Entry τ)} →
    (∀ entry ∈ entries, entry.node.value.Distinct) →
      Entry.changeAll? change entries = some changed →
      ∀ entry ∈ changed, entry.node.value.Distinct
  | [], _, _, h => by
    obtain rfl := Option.some.inj h
    exact List.forall_mem_nil _
  | ⟨key, ⟨span, value⟩⟩ :: others, _, hdistinct, h => by
    obtain ⟨hvalue, hothers⟩ := List.forall_mem_cons.1 hdistinct
    simp only [Entry.changeAll?, Option.bind_eq_bind, Option.bind_eq_some_iff] at h
    obtain ⟨changed, hchanged, rest, hrest, h⟩ := h
    obtain rfl := Option.some.inj h
    exact List.forall_mem_cons.2 ⟨value.distinct_of_change? hvalue hchanged,
      Entry.distinct_of_changeAll? others hothers hrest⟩

end

end Change

/-! ## Readers -/

namespace Reading

variable {τ α β : Type}

/-- Whatever is read has a property. -/
def All {input : List τ} (P : α → Prop) (reading : Reading τ α input) : Prop :=
  ∀ value rest, reading = some (value, rest) → P value

variable {input : List τ} {P : α → Prop} {Q : β → Prop}

theorem All.none : All P (none : Reading τ α input) := nofun

theorem All.found {value : α} (h : P value) (rest : List τ) (hrest : rest.length < input.length) :
    All P (Reading.found value rest hrest) := by
  rintro other left ⟨⟩
  exact h

theorem All.behind {later : List τ} (hlater : later.length ≤ input.length)
    {reading : Reading τ α later} (h : All P reading) : All P (reading.behind hlater) := by
  intro value rest hread
  obtain ⟨⟨other, left⟩, hother, hvalue⟩ := Option.map_eq_some_iff.1 hread
  obtain ⟨rfl, -⟩ := Prod.mk.inj hvalue
  exact h other left hother

theorem All.mapValue {reading : Reading τ α input} (h : All P reading) {change : α → β}
    (hchange : ∀ value, P value → Q (change value)) : All Q (reading.mapValue change) := by
  intro value rest hread
  obtain ⟨⟨other, left⟩, hother, hvalue⟩ := Option.map_eq_some_iff.1 hread
  obtain ⟨rfl, -⟩ := Prod.mk.inj hvalue
  exact hchange other (h other left hother)

/-- Anything may be said of a reading that does not matter. -/
theorem All.trivial (reading : Reading τ α input) : All (fun _ => True) reading :=
  fun _ _ _ => .intro

end Reading

/-- The value of a node is distinct. -/
def Node.Distinct {σ : Type} (node : Node σ) : Prop :=
  node.value.Distinct

/-- The reader gives distinct values only. -/
def ValueReader.GivesDistinct (value : ValueReader) : Prop :=
  ∀ tokens, (value tokens).All (Ensured Node.Distinct)

/-- A value that is given to a key is distinct if it was read so. -/
theorem Assignment.give_distinct {key : Except Flaw DottedKey}
    {node : Except Flaw (Node BareText)} (h : Ensured Node.Distinct node) :
    Ensured Assignment.Distinct (Assignment.give key node) :=
  (Ensured.trivial key).bind fun _ _ => h.bind fun _ hnode => .ok hnode

/-- Items that are all right are distinct if each of them is. -/
theorem Node.mapM_distinct {σ : Type} {items : List (Except Flaw (Node σ))}
    (h : ∀ item ∈ items, Ensured Node.Distinct item) :
    Ensured (fun nodes => ∀ node ∈ nodes, node.value.Distinct) (items.mapM id) := by
  induction items with
  | nil => exact .ok (List.forall_mem_nil _)
  | cons item others ih =>
      obtain ⟨hitem, hothers⟩ := List.forall_mem_cons.1 h
      rw [List.mapM_cons]
      refine hitem.bind fun node hnode => ?_
      exact (ih hothers).bind fun nodes hnodes => .ok (List.forall_mem_cons.2 ⟨hnode, hnodes⟩)

/-- A quoted text is distinct. -/
theorem quotedNode_distinct (content : Quotation) (span : Span) :
    Ensured Node.Distinct (quotedNode content span) := by
  unfold quotedNode
  split
  · exact .ok (.string _)
  · exact .error _

/-- A bare value is distinct. -/
theorem bareNode_distinct (start : Span) (opening : List Char) (tokens : List Token) :
    Ensured Node.Distinct (bareNode start opening tokens).1 := by
  simp only [bareNode]
  split
  · exact .ok (.bare _)
  · exact .error _

variable {value : ValueReader}

/-- The items of an array are distinct. -/
theorem arrayItems_distinct (hvalue : value.GivesDistinct) (tokens : List Token) :
    (arrayItems value tokens).All fun found => ∀ item ∈ found.1, Ensured Node.Distinct item := by
  fun_induction arrayItems value tokens with
  | case1 tokens start hstart _ span rest _ =>
      exact (Reading.All.found (List.forall_mem_nil _) rest.1 rest.2).behind hstart
  | case2 => exact .none
  | case3 tokens start _ _ _ item _ _ hread _ _ _ _ _ _ _ ih =>
      refine (ih.mapValue fun found hfound => ?_).behind _
      exact List.forall_mem_cons.2 ⟨hvalue start item _ hread, hfound⟩
  | case4 tokens start _ _ _ item _ _ hread next _ _ _ =>
      refine ((Reading.All.trivial (symbol .closeBracket next)).mapValue fun _ _ => ?_).behind _
      exact List.forall_mem_singleton.2 (hvalue start item _ hread)

/-- An assignment in braces has a distinct value. -/
theorem bracedAssignment_distinct (hvalue : value.GivesDistinct) {tokens : List Token}
    {assignment : Except Flaw (Assignment BareText)} {rest : Remainder tokens}
    (h : bracedAssignment value tokens = some (assignment, rest)) :
    Ensured Assignment.Distinct assignment := by
  unfold bracedAssignment at h
  split at h
  split at h
  split at h
  · split at h
    · obtain ⟨rfl, -⟩ := Prod.mk.inj (Option.some.inj h)
      exact Assignment.give_distinct (.error _)
    · cases h
  · split at h
    split at h
    · obtain ⟨rfl, -⟩ := Prod.mk.inj (Option.some.inj h)
      exact Assignment.give_distinct (.error _)
    · obtain ⟨⟨node, left⟩, hread, hgiven⟩ := Option.map_eq_some_iff.1 h
      obtain ⟨rfl, -⟩ := Prod.mk.inj hgiven
      exact Assignment.give_distinct (hvalue _ _ _ hread)

/-- The assignments of a table in braces have distinct values. -/
theorem tableItems_distinct (hvalue : value.GivesDistinct) (tokens : List Token) :
    (tableItems value tokens).All
      fun found => ∀ item ∈ found.1, Ensured Assignment.Distinct item := by
  fun_induction tableItems value tokens with
  | case1 tokens start hstart _ span rest _ =>
      exact (Reading.All.found (List.forall_mem_nil _) rest.1 rest.2).behind hstart
  | case2 => exact .none
  | case3 tokens start _ _ _ item _ _ hread _ _ _ _ _ _ _ ih =>
      refine (ih.mapValue fun found hfound => ?_).behind _
      exact List.forall_mem_cons.2 ⟨bracedAssignment_distinct hvalue hread, hfound⟩
  | case4 tokens start _ _ _ item _ _ hread next _ _ _ =>
      refine ((Reading.All.trivial (symbol .closeBrace next)).mapValue fun _ _ => ?_).behind _
      exact List.forall_mem_singleton.2 (bracedAssignment_distinct hvalue hread)

/-- Values are distinct, however deep they may be nested. -/
theorem value_givesDistinct (depth : Nat) : ValueReader.GivesDistinct (Toml.value depth) := by
  induction depth using Nat.strongRecOn with
  | ind depth ih =>
    intro tokens
    unfold Toml.value
    split
    · exact .none
    · next first rest =>
      dsimp only
      split
      · exact .found (quotedNode_distinct _ _) _ _
      · exact .found (bareNode_distinct first.span _ rest) _ _
      · exact .none
      · split
        · exact .found (bareNode_distinct first.span _ rest) _ _
        -- Items in brackets or braces are read with one level of depth less.
        · refine ((arrayItems_distinct (ih _ (Nat.lt_succ_self _)) rest).mapValue
            fun found hfound => ?_).behind _
          exact (Node.mapM_distinct hfound).map fun nodes hnodes => .array .brackets hnodes
        · refine ((tableItems_distinct (ih _ (Nat.lt_succ_self _)) rest).mapValue
            fun found hfound => ?_).behind _
          exact (assignAll_distinct .nil hfound).map fun entries hentries =>
            Value.distinct_table_iff.2 hentries
        · exact .none

/-! ## Statements -/

/-- An assignment on a line of its own has a distinct value. -/
theorem assignment_distinct (hvalue : value.GivesDistinct) (tokens : List Token) :
    (assignment value tokens).All (Ensured Assignment.Distinct) := by
  unfold assignment
  split
  split
  · exact .none
  · split
    · exact .found (Assignment.give_distinct (.error _)) _ _
    · exact ((hvalue _).mapValue fun node hnode => Assignment.give_distinct hnode).behind _

/-- The values in a statement are distinct. -/
theorem statement_distinct (tokens : List Token) :
    (statement tokens).All Statement.Distinct := by
  unfold statement
  split
  · exact (Reading.All.trivial (header tokens)).mapValue fun _ _ => trivial
  · exact (assignment_distinct (value_givesDistinct maxDepth) tokens).mapValue fun _ h => h

/-- The values in all statements are distinct. -/
theorem statements?_distinct {tokens : List Token} {parts : List Statement}
    (h : statements? tokens = some parts) : ∀ part ∈ parts, part.Distinct := by
  fun_induction statements? tokens generalizing parts with
  | case1 =>
      obtain rfl := Option.some.inj h
      exact List.forall_mem_nil _
  | case2 => cases h
  | case3 _ _ _ _ _ first _ _ hread =>
      obtain rfl := Option.some.inj h
      exact List.forall_mem_singleton.2 (statement_distinct _ first _ hread)
  | case4 _ _ _ _ _ first _ _ _ _ _ hread ih =>
      obtain ⟨later, hlater, rfl⟩ := Option.map_eq_some_iff.1 h
      exact List.forall_mem_cons.2 ⟨statement_distinct _ first _ hread, ih hlater⟩
  | case5 => cases h

/-- In all tables of a document the keys are different. -/
theorem Document.ofText_distinct (text : String) :
    Ensured (fun document => Entry.Distinct document.entries) (ofText text) := by
  unfold ofText
  split
  · exact .error _
  · next parts hparts =>
    obtain ⟨tokens, -, hparts⟩ := Option.bind_eq_some_iff.1 hparts
    refine (entriesOf_distinct (statements?_distinct hparts)).bind fun entries hentries => ?_
    split
    · exact .error _
    · next changed hchanged =>
      refine .ok ⟨?_, Entry.distinct_of_changeAll? entries hentries.values hchanged⟩
      rw [Entry.keys_of_changeAll? hchanged]
      exact hentries.keys

/-- The reader of this library gives different keys. -/
theorem Document.distinctKeys_ofText : Reader.DistinctKeys ofText :=
  fun text document h => (ofText_distinct text document h).keys

end JavaResources.Toml
