import JavaResources.JavaClass
import Mathlib.Data.Finset.Card

/-!
# The latest member of each name

However many members are added to a class, and however often their names repeat, the class ends up
with the latest member of each name, in the order in which these were added. `JavaClass.latest`
picks them from the whole list of additions, and `addAll_latest` says that a class that was built by
adding one member after the other has just those, and what each addition answered.
-/

namespace JavaResources.JavaClass

/-- The members whose name no later member has. -/
def latest : List Member → List Member
  | [] => []
  | member :: later =>
    if later.any (·.name = member.name) then latest later else member :: latest later

/-- The member of a list that comes last among those of a name. -/
def lastNamed? (name : String) (members : List Member) : Option Member :=
  (members.filter (·.name = name)).getLast?

theorem latest_cons_of_later {member : Member} {later : List Member}
    (h : ∃ other ∈ later, other.name = member.name) :
    latest (member :: later) = latest later := by
  have taken : later.any (·.name = member.name) = true := by simpa using h
  rw [latest, if_pos taken]

theorem latest_cons_of_last {member : Member} {later : List Member}
    (h : ∀ other ∈ later, other.name ≠ member.name) :
    latest (member :: later) = member :: latest later := by
  have free : ¬ later.any (·.name = member.name) = true := by simpa using h
  rw [latest, if_neg free]

/-- A member either has a later one of its name or is the last that has it. -/
theorem later_or_last (member : Member) (later : List Member) :
    (∃ other ∈ later, other.name = member.name) ∨
      ∀ other ∈ later, other.name ≠ member.name := by
  by_cases h : ∃ other ∈ later, other.name = member.name
  · exact .inl h
  · exact .inr (by simpa using h)

/-- A further member takes the place of the one that has its name, and comes last. -/
theorem latest_concat (members : List Member) (member : Member) :
    latest (members ++ [member]) = insertLast (latest members) member := by
  induction members with
  | nil => rfl
  | cons first others ih =>
      rw [List.cons_append]
      obtain ⟨other, known, same⟩ | last := later_or_last first others
      · rw [latest_cons_of_later ⟨other, known, same⟩,
          latest_cons_of_later ⟨other, List.mem_append_left _ known, same⟩, ih]
      · rw [latest_cons_of_last last]
        -- The first member is dropped by whichever side looks at the further one.
        by_cases same : member.name = first.name
        · rw [latest_cons_of_later ⟨member, by simp, same⟩, ih]
          show _ = (first :: latest others).filter (·.name ≠ member.name) ++ [member]
          rw [List.filter_cons_of_neg (by simp [same])]
          rfl
        · have still : ∀ other ∈ others ++ [member], other.name ≠ first.name := by
            intro other known
            obtain known | known := List.mem_append.mp known
            · exact last other known
            · rw [List.mem_singleton.mp known]
              exact same
          rw [latest_cons_of_last still, ih]
          show _ = (first :: latest others).filter (·.name ≠ member.name) ++ [member]
          rw [List.filter_cons_of_pos (by simp [Ne.symm same])]
          rfl

/-- A member that a later one overrides is none of the latest, wherever it was added. -/
theorem latest_of_overridden {member : Member} {after : List Member}
    (h : ∃ later ∈ after, later.name = member.name) (before : List Member) :
    latest (before ++ member :: after) = latest (before ++ after) := by
  induction before with
  | nil => exact latest_cons_of_later h
  | cons first others ih =>
      obtain ⟨later, known, same⟩ := h
      rw [List.cons_append, List.cons_append]
      -- Leaving the member out hides no name: the later one has the same.
      obtain ⟨other, found, named⟩ | last := later_or_last first (others ++ after)
      · have still : other ∈ others ++ member :: after := by
          obtain found | found := List.mem_append.mp found
          · exact List.mem_append_left _ found
          · exact List.mem_append_right _ (List.mem_cons_of_mem _ found)
        rw [latest_cons_of_later ⟨other, found, named⟩, latest_cons_of_later ⟨other, still, named⟩,
          ih]
      · have still : ∀ other ∈ others ++ member :: after, other.name ≠ first.name := by
          intro other found
          obtain found | found := List.mem_append.mp found
          · exact last other (List.mem_append_left _ found)
          · obtain rfl | found := List.mem_cons.mp found
            · exact same ▸ last later (List.mem_append_right _ known)
            · exact last other (List.mem_append_right _ found)
        rw [latest_cons_of_last last, latest_cons_of_last still, ih]

/-- The latest members have all the names. -/
theorem mem_names_latest {name : String} {members : List Member} :
    name ∈ (latest members).map Member.name ↔ name ∈ members.map Member.name := by
  induction members with
  | nil => rfl
  | cons first others ih =>
      obtain later | last := later_or_last first others
      · rw [latest_cons_of_later later, ih, List.map_cons, List.mem_cons]
        refine ⟨.inr, fun known => ?_⟩
        obtain rfl | known := known
        · exact List.mem_map.mpr later
        · exact known
      · rw [latest_cons_of_last last, List.map_cons, List.map_cons, List.mem_cons, List.mem_cons,
          ih]

/-- The latest members have different names. -/
theorem nodup_names_latest (members : List Member) :
    ((latest members).map Member.name).Nodup := by
  induction members with
  | nil => exact List.nodup_nil
  | cons first others ih =>
      obtain later | last := later_or_last first others
      · rw [latest_cons_of_later later]
        exact ih
      · rw [latest_cons_of_last last, List.map_cons]
        refine List.nodup_cons.mpr ⟨fun known => ?_, ih⟩
        obtain ⟨other, known, same⟩ := List.mem_map.mp (mem_names_latest.mp known)
        exact last other known same

/-- Members with different names are all the latest of theirs. -/
theorem latest_of_nodup {members : List Member} (h : (members.map Member.name).Nodup) :
    latest members = members := by
  induction members with
  | nil => rfl
  | cons first others ih =>
      rw [List.map_cons] at h
      obtain ⟨fresh, distinct⟩ := List.nodup_cons.mp h
      have last : ∀ other ∈ others, other.name ≠ first.name := by
        intro other known same
        exact fresh (List.mem_map.mpr ⟨other, known, same⟩)
      rw [latest_cons_of_last last, ih distinct]

/-! ## The last member of a name -/

/-- A member of another name is passed over. -/
theorem lastNamed?_cons_of_ne {name : String} {member : Member} {others : List Member}
    (h : member.name ≠ name) : lastNamed? name (member :: others) = lastNamed? name others := by
  rw [lastNamed?, List.filter_cons_of_neg (by simp [h])]
  rfl

/-- A member is passed over if a later one has its name. -/
theorem lastNamed?_cons_of_later {name : String} {member : Member} {others : List Member}
    (h : ∃ other ∈ others, other.name = name) :
    lastNamed? name (member :: others) = lastNamed? name others := by
  obtain ⟨other, known, named⟩ := h
  have left : others.filter (·.name = name) ≠ [] :=
    List.ne_nil_of_mem (List.mem_filter.mpr ⟨known, by simp [named]⟩)
  rw [lastNamed?, List.filter_cons]
  split
  · exact List.getLast?_cons_of_ne_nil left
  · rfl

/-- A member that no later one shares its name with is the last of its name. -/
theorem lastNamed?_cons_of_last {member : Member} {others : List Member}
    (h : ∀ other ∈ others, other.name ≠ member.name) :
    lastNamed? member.name (member :: others) = some member := by
  have none_left : others.filter (·.name = member.name) = [] := by simpa using h
  rw [lastNamed?, List.filter_cons_of_pos (by simp), none_left]
  rfl

/-- The latest member of a name is the last one that has it. -/
theorem find?_latest (name : String) (members : List Member) :
    (latest members).find? (·.name = name) = lastNamed? name members := by
  induction members with
  | nil => rfl
  | cons first others ih =>
      obtain later | last := later_or_last first others
      · rw [latest_cons_of_later later, ih]
        by_cases named : first.name = name
        · rw [lastNamed?_cons_of_later (named ▸ later)]
        · rw [lastNamed?_cons_of_ne named]
      · rw [latest_cons_of_last last]
        by_cases named : first.name = name
        · rw [List.find?_cons_of_pos (by simp [named]), ← named, lastNamed?_cons_of_last last]
        · rw [List.find?_cons_of_neg (by simp [named]), ih, lastNamed?_cons_of_ne named]

/-! ## Runs of additions -/

/-- A class that members were added to one after the other, starting without any, has the latest
of them, and is otherwise as it was. -/
theorem addAll_eq (name : String) (isStatic keepEmpty : Bool) (comment : DocComment)
    (added : List Member) :
    addAll ⟨name, isStatic, keepEmpty, comment, []⟩ added
      = ⟨name, isStatic, keepEmpty, comment, latest added⟩ := by
  -- The last addition is the one that sees the class built so far.
  induction added using List.reverseRecOn with
  | nil => rfl
  | append_singleton before member ih =>
      rw [addAll, List.foldl_concat, ← addAll, ih, changed_add, latest_concat]

/-- A class of the latest members has one of a name exactly if one was added under it. -/
theorem isSome_find?_latest {name : String} {members : List Member} :
    ((latest members).find? (·.name = name)).isSome = true
      ↔ ∃ member ∈ members, member.name = name := by
  have names : name ∈ (latest members).map Member.name ↔ name ∈ members.map Member.name :=
    mem_names_latest
  simpa using names

/-- An addition overrides exactly if the name was taken, and then logs just that. -/
theorem add_eq_of_isSome {javaClass : JavaClass} {member : Member}
    (h : (javaClass.get? member.name).isSome = true) :
    (javaClass.add member).result = .overridden
      ∧ (javaClass.add member).events = [.memberOverridden javaClass.name member.name] := by
  rw [add, if_pos h]
  exact ⟨rfl, rfl⟩

theorem add_eq_of_not_isSome {javaClass : JavaClass} {member : Member}
    (h : ¬ (javaClass.get? member.name).isSome = true) :
    (javaClass.add member).result = .added ∧ (javaClass.add member).events = [] := by
  rw [add, if_neg h]
  exact ⟨rfl, rfl⟩

/-- What an addition to a class with the latest of some members answers and logs. -/
theorem add_latest (name : String) (isStatic keepEmpty : Bool) (comment : DocComment)
    (before : List Member) (member : Member) :
    let addition := add ⟨name, isStatic, keepEmpty, comment, latest before⟩ member
    (addition.result = .overridden ↔ ∃ earlier ∈ before, earlier.name = member.name)
      ∧ addition.events
        = if ∃ earlier ∈ before, earlier.name = member.name then
            [.memberOverridden name member.name]
          else [] := by
  intro addition
  have taken : ((⟨name, isStatic, keepEmpty, comment, latest before⟩ : JavaClass).get?
      member.name).isSome = true ↔ ∃ earlier ∈ before, earlier.name = member.name :=
    isSome_find?_latest
  by_cases earlier : ∃ earlier ∈ before, earlier.name = member.name
  · obtain ⟨answer, logged⟩ := add_eq_of_isSome (taken.mpr earlier)
    refine ⟨⟨fun _ => earlier, fun _ => answer⟩, ?_⟩
    rw [if_pos earlier]
    exact logged
  · obtain ⟨answer, logged⟩ := add_eq_of_not_isSome (earlier ∘ taken.mp)
    refine ⟨⟨fun overridden => ?_, fun h => absurd h earlier⟩, ?_⟩
    · rw [answer] at overridden
      exact nomatch overridden
    · rw [if_neg earlier]
      exact logged

/-- Every run of additions to a fresh class, whatever names repeat in it. The class has the latest
member of each name in the order of these additions, and nothing else about it changed; its names
are distinct, it finds under each the last member that was added, and it counts the names. Each
addition overrides exactly if an earlier one had its name, and logs that once. Adding just the
members that are left makes the same class. -/
theorem addAll_latest (name : String) (isStatic keepEmpty : Bool) (comment : DocComment)
    (added : List Member) :
    let fresh : JavaClass := ⟨name, isStatic, keepEmpty, comment, []⟩
    let built := fresh.addAll added
    built = { fresh with members := latest added }
      ∧ (built.members.map Member.name).Nodup
      ∧ (∀ key, built.get? key = lastNamed? key added)
      ∧ built.size = (added.map Member.name).toFinset.card
      ∧ (∀ before member after, added = before ++ member :: after →
          let addition := (fresh.addAll before).add member
          (addition.result = .overridden ↔ ∃ earlier ∈ before, earlier.name = member.name)
            ∧ addition.events
              = if ∃ earlier ∈ before, earlier.name = member.name then
                  [.memberOverridden name member.name]
                else [])
      ∧ fresh.addAll (latest added) = built := by
  intro fresh built
  have built_eq : built = { fresh with members := latest added } :=
    addAll_eq name isStatic keepEmpty comment added
  have distinct : ((latest added).map Member.name).Nodup := nodup_names_latest added
  have names : ((latest added).map Member.name).toFinset = (added.map Member.name).toFinset := by
    ext name
    rw [List.mem_toFinset, List.mem_toFinset, mem_names_latest]
  rw [built_eq]
  refine ⟨rfl, distinct, fun key => find?_latest key added, ?_, ?_, ?_⟩
  · show (latest added).length = _
    rw [← names, List.toFinset_card_of_nodup distinct, List.length_map]
  · intro before member after _
    rw [addAll_eq name isStatic keepEmpty comment before]
    exact add_latest name isStatic keepEmpty comment before member
  · rw [addAll_eq name isStatic keepEmpty comment (latest added), latest_of_nodup distinct]

/-- A member that takes the place of another one moves to the end. -/
example :
    (addAll { name := "R" } (["a", "b", "c", "b", "a"].map (.field ⟨·, .int 0, {}⟩))).members.map
      Member.name = ["c", "b", "a"] := by decide

end JavaResources.JavaClass
