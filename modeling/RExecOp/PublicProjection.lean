import RExecOp.Value

/-! Public projection of payloads (`evidence/public_projection.py`). The code follows the text
of a path; permission is a matter of the keys that lead to a field. -/

namespace RExecOp.PublicProjection

variable {path key : String} {value : Value} {keys ks : List String}

def topLevelSafeFields : List String :=
  ["step_id", "success", "error", "error_class", "status_code", "action_contract_digest",
    "output_digests", "output_truncated", "output_sizes", "max_output_bytes",
    "observed_destination_binding", "audience"]

def outputSafeFields : List String :=
  ["error_class", "status_code", "action_contract_digest", "output_digests", "output_truncated",
    "output_sizes", "max_output_bytes", "observed_destination_binding"]

def structuredOutputSubtrees : List String :=
  ["before_state", "after_state", "output_digests", "output_truncated", "output_sizes",
    "observed_destination_binding"]

/-- `digestOnly` is the record that stands for a hidden value. -/
inductive Projected where
  | value (v : Value)
  | digestOnly (digest : String)
  | list (items : List Projected)
  | mapping (entries : List (String × Projected))

/-- `declared`: stripped, without empty entries. -/
def declaredFields (allowlist : List String) : List String :=
  (allowlist.map strip).filter (· ≠ "")

def childPath (path key : String) : String := if path = "" then key else path ++ "." ++ key

def startsWithOutput (path : String) : Bool := "output.".toList.isPrefixOf path.toList

def fieldAllowed (declared : List String) (path key : String) (nestedParent : Bool) : Bool :=
  declared.contains path || (nestedParent && topLevelSafeFields.contains key) ||
    (startsWithOutput path && outputSafeFields.contains key)

section

variable (digest : Value → String) (declared : List String)

mutual

def projectMapping (path : String) : Entries → List (String × Projected)
  | [] => []
  | (key, value) :: rest => (key, projectField path key value) :: projectMapping path rest

def projectField (path key : String) : Value → Projected
  | .dict entries =>
    if key = "output" then .mapping (projectOutputMapping entries)
    else if fieldAllowed declared (childPath path key) key (path = "") then
      .mapping (projectMapping (childPath path key) entries)
    else .digestOnly (digest (.dict entries))
  | .list items =>
    if fieldAllowed declared (childPath path key) key (path = "") then
      .list (projectItems (childPath path key) items)
    else .digestOnly (digest (.list items))
  | value =>
    if fieldAllowed declared (childPath path key) key (path = "") then .value value
    else .digestOnly (digest value)

def projectOutputMapping : Entries → List (String × Projected)
  | [] => []
  | (key, value) :: rest =>
    (key,
      if fieldAllowed declared ("output." ++ key) key false then
        if structuredOutputSubtrees.contains key then .value value
        else projectValue ("output." ++ key) value
      else .digestOnly (digest value)) :: projectOutputMapping rest

def projectValue (path : String) : Value → Projected
  | .dict entries => .mapping (projectMapping path entries)
  | .list items => .list (projectItems path items)
  | value => .value value

def projectItems (path : String) : List Value → List Projected
  | [] => []
  | item :: rest => projectValue path item :: projectItems path rest

end

end

def projectPublicPayload (digest : Value → String) (allowlist : List String) (payload : Entries) :
    Projected :=
  .mapping (projectMapping digest (declaredFields allowlist) "" payload)

def isTopLevelSafe : List String → Bool
  | [key] => topLevelSafeFields.contains key
  | _ => false

/-- An allowlist entry, a safe field at the top or one below the top-level output. -/
def ownPermission (declared : List String) (keys : List String) : Bool :=
  declared.any (fun field => splitDots field = keys) || isTopLevelSafe keys ||
    (keys.head? == some "output" && outputSafeFields.contains (keys.getLastD ""))

def inStructuredOutput (declared : List String) : List String → Bool
  | "output" :: subtree :: _ =>
    structuredOutputSubtrees.contains subtree && ownPermission declared ["output", subtree]
  | _ => false

def permitted (declared : List String) (keys : List String) : Bool :=
  ownPermission declared keys || inStructuredOutput declared keys

def isLeaf : Value → Bool
  | .dict _ | .list _ => false
  | _ => true

section

variable (P : List String → Prop)

mutual

/-- The values differ only at leaves whose keys do not satisfy `P`. -/
def SameExcept (keys : List String) : Value → Value → Prop
  | .dict entries, other => ∃ others, other = .dict others ∧ SameEntries keys entries others
  | .list items, other => ∃ others, other = .list others ∧ SameItems keys items others
  | leaf, other => isLeaf other = true ∧ (P keys → other = leaf)

def SameEntries (keys : List String) : Entries → Entries → Prop
  | [], others => others = []
  | (key, value) :: rest, others => ∃ other later, others = (key, other) :: later ∧
    SameExcept (keys ++ [key]) value other ∧ SameEntries keys rest later

def SameItems (keys : List String) : List Value → List Value → Prop
  | [], others => others = []
  | item :: rest, others => ∃ other later, others = other :: later ∧
    SameExcept keys item other ∧ SameItems keys rest later

end

end

mutual

/-- The projection without the digests in it. -/
def Projected.masked : Projected → Projected
  | .value v => .value v
  | .digestOnly _ => .digestOnly ""
  | .list items => .list (maskedItems items)
  | .mapping entries => .mapping (maskedEntries entries)

def maskedItems : List Projected → List Projected
  | [] => []
  | item :: rest => item.masked :: maskedItems rest

def maskedEntries : List (String × Projected) → List (String × Projected)
  | [] => []
  | (key, item) :: rest => (key, item.masked) :: maskedEntries rest

end

/-- What is shown outside the digests depends on permitted leaves only. -/
def Noninterfering (digest : Value → String) (allowlist : List String) (payload : Entries) :
    Prop :=
  ∀ other, SameEntries (fun keys => permitted (declaredFields allowlist) keys = true) [] payload
    other → (projectPublicPayload digest allowlist payload).masked =
      (projectPublicPayload digest allowlist other).masked

mutual

def leafKeys (keys : List String) : Value → List (List String)
  | .dict entries => leafKeysOfEntries keys entries
  | .list items => leafKeysOfItems keys items
  | _ => [keys]

def leafKeysOfEntries (keys : List String) : Entries → List (List String)
  | [] => []
  | (key, value) :: rest => leafKeys (keys ++ [key]) value ++ leafKeysOfEntries keys rest

def leafKeysOfItems (keys : List String) : List Value → List (List String)
  | [] => []
  | item :: rest => leafKeys keys item ++ leafKeysOfItems keys rest

end

mutual

def Projected.shown (keys : List String) : Projected → List (List String)
  | .value v => leafKeys keys v
  | .digestOnly _ => []
  | .list items => shownItems keys items
  | .mapping entries => shownEntries keys entries

def shownItems (keys : List String) : List Projected → List (List String)
  | [] => []
  | item :: rest => item.shown keys ++ shownItems keys rest

def shownEntries (keys : List String) : List (String × Projected) → List (List String)
  | [] => []
  | (key, item) :: rest => item.shown (keys ++ [key]) ++ shownEntries keys rest

end

section

variable {P : List String → Prop}

mutual

theorem eq_of_same {keys : List String} {value other : Value}
    (same : SameExcept P keys value other) (shown : ∀ ks ∈ leafKeys keys value, P ks) :
    value = other := by
  cases value with
  | dict entries =>
    obtain ⟨others, rfl, same⟩ := same
    rw [entries_eq_of_same same shown]
  | list items =>
    obtain ⟨others, rfl, same⟩ := same
    rw [items_eq_of_same same shown]
  | _ => exact (same.2 (shown keys List.mem_cons_self)).symm

theorem entries_eq_of_same {keys : List String} {entries others : Entries}
    (same : SameEntries P keys entries others)
    (shown : ∀ ks ∈ leafKeysOfEntries keys entries, P ks) : entries = others := by
  cases entries with
  | nil => exact same.symm
  | cons entry rest =>
    obtain ⟨key, value⟩ := entry
    obtain ⟨other, later, rfl, here, there⟩ := same
    rw [eq_of_same here fun ks member => shown ks (List.mem_append_left _ member),
      entries_eq_of_same there fun ks member => shown ks (List.mem_append_right _ member)]

theorem items_eq_of_same {keys : List String} {items others : List Value}
    (same : SameItems P keys items others)
    (shown : ∀ ks ∈ leafKeysOfItems keys items, P ks) : items = others := by
  cases items with
  | nil => exact same.symm
  | cons item rest =>
    obtain ⟨other, later, rfl, here, there⟩ := same
    rw [eq_of_same here fun ks member => shown ks (List.mem_append_left _ member),
      items_eq_of_same there fun ks member => shown ks (List.mem_append_right _ member)]

end

theorem projectField_leaf {digest : Value → String} {declared : List String}
    (leaf : isLeaf value = true) : projectField digest declared path key value =
      if fieldAllowed declared (childPath path key) key (path = "") then .value value
      else .digestOnly (digest value) := by
  cases value with
  | dict entries => cases leaf
  | list items => cases leaf
  | _ => rfl

theorem projectValue_leaf {digest : Value → String} {declared : List String}
    (leaf : isLeaf value = true) : projectValue digest declared path value = .value value := by
  cases value with
  | dict entries => cases leaf
  | list items => cases leaf
  | _ => rfl

variable {digest : Value → String} {declared : List String}

mutual

theorem masked_mapping {path : String} {keys : List String} {entries others : Entries}
    (same : SameEntries P keys entries others)
    (shown : ∀ ks ∈ shownEntries keys (projectMapping digest declared path entries), P ks) :
    maskedEntries (projectMapping digest declared path entries) =
      maskedEntries (projectMapping digest declared path others) := by
  cases entries with
  | nil => rw [show others = [] from same]
  | cons entry rest =>
    obtain ⟨key, value⟩ := entry
    obtain ⟨other, later, rfl, here, there⟩ := same
    simp only [projectMapping, maskedEntries]
    rw [masked_field here fun ks member => shown ks (List.mem_append_left _ member),
      masked_mapping there fun ks member => shown ks (List.mem_append_right _ member)]
termination_by structural entries

theorem masked_field {path key : String} {keys : List String} {value other : Value}
    (same : SameExcept P (keys ++ [key]) value other)
    (shown : ∀ ks ∈ (projectField digest declared path key value).shown (keys ++ [key]), P ks) :
    (projectField digest declared path key value).masked =
      (projectField digest declared path key other).masked := by
  cases value with
  | dict entries =>
    obtain ⟨others, rfl, same⟩ := same
    by_cases atOutput : key = "output"
    · simp only [projectField, if_pos atOutput, Projected.shown] at shown
      simp only [projectField, if_pos atOutput, Projected.masked, masked_output same shown]
    · by_cases allowed : fieldAllowed declared (childPath path key) key (path = "") = true
      · simp only [projectField, if_neg atOutput, if_pos allowed, Projected.shown] at shown
        simp only [projectField, if_neg atOutput, if_pos allowed, Projected.masked,
          masked_mapping same shown]
      · simp only [projectField, if_neg atOutput, if_neg allowed, Projected.masked]
  | list items =>
    obtain ⟨others, rfl, same⟩ := same
    by_cases allowed : fieldAllowed declared (childPath path key) key (path = "") = true
    · simp only [projectField, if_pos allowed, Projected.shown] at shown
      simp only [projectField, if_pos allowed, Projected.masked, masked_items same shown]
    · simp only [projectField, if_neg allowed, Projected.masked]
  | _ =>
    rw [projectField_leaf rfl, projectField_leaf same.1]
    by_cases allowed : fieldAllowed declared (childPath path key) key (path = "") = true
    · simp only [projectField, if_pos allowed, Projected.shown] at shown
      rw [same.2 (shown _ List.mem_cons_self)]
    · simp only [if_neg allowed, Projected.masked]
termination_by structural value

theorem masked_output {keys : List String} {entries others : Entries}
    (same : SameEntries P keys entries others)
    (shown : ∀ ks ∈ shownEntries keys (projectOutputMapping digest declared entries), P ks) :
    maskedEntries (projectOutputMapping digest declared entries) =
      maskedEntries (projectOutputMapping digest declared others) := by
  cases entries with
  | nil => rw [show others = [] from same]
  | cons entry rest =>
    obtain ⟨key, value⟩ := entry
    obtain ⟨other, later, rfl, here, there⟩ := same
    simp only [projectOutputMapping, maskedEntries]
    rw [masked_output there fun ks member => shown ks (List.mem_append_right _ member)]
    by_cases allowed : fieldAllowed declared ("output." ++ key) key false = true
    · by_cases structured : structuredOutputSubtrees.contains key = true
      · simp only [projectOutputMapping, if_pos allowed, if_pos structured] at shown
        rw [eq_of_same here fun ks member => shown ks (List.mem_append_left _ member)]
      · simp only [projectOutputMapping, if_pos allowed, if_neg structured] at shown
        simp only [if_pos allowed, if_neg structured]
        rw [masked_value here fun ks member => shown ks (List.mem_append_left _ member)]
    · simp only [if_neg allowed, Projected.masked]
termination_by structural entries

theorem masked_value {path : String} {keys : List String} {value other : Value}
    (same : SameExcept P keys value other)
    (shown : ∀ ks ∈ (projectValue digest declared path value).shown keys, P ks) :
    (projectValue digest declared path value).masked =
      (projectValue digest declared path other).masked := by
  cases value with
  | dict entries =>
    obtain ⟨others, rfl, same⟩ := same
    rw [projectValue, projectValue, Projected.masked, Projected.masked, masked_mapping same shown]
  | list items =>
    obtain ⟨others, rfl, same⟩ := same
    rw [projectValue, projectValue, Projected.masked, Projected.masked, masked_items same shown]
  | _ =>
    rw [projectValue_leaf rfl, projectValue_leaf same.1, same.2 (shown keys List.mem_cons_self)]
termination_by structural value

theorem masked_items {path : String} {keys : List String} {items others : List Value}
    (same : SameItems P keys items others)
    (shown : ∀ ks ∈ shownItems keys (projectItems digest declared path items), P ks) :
    maskedItems (projectItems digest declared path items) =
      maskedItems (projectItems digest declared path others) := by
  cases items with
  | nil => rw [show others = [] from same]
  | cons item rest =>
    obtain ⟨other, later, rfl, here, there⟩ := same
    simp only [projectItems, maskedItems]
    rw [masked_value here fun ks member => shown ks (List.mem_append_left _ member),
      masked_items there fun ks member => shown ks (List.mem_append_right _ member)]
termination_by structural items

end

def otherLeaf : Value → Value
  | .null => .bool true
  | _ => .null

section

variable (ks : List String)

mutual

/-- The value with other leaves at the key sequence `ks`. -/
def alter (keys : List String) : Value → Value
  | .dict entries => .dict (alterEntries keys entries)
  | .list items => .list (alterItems keys items)
  | leaf => if keys = ks then otherLeaf leaf else leaf

def alterEntries (keys : List String) : Entries → Entries
  | [] => []
  | (key, value) :: rest => (key, alter (keys ++ [key]) value) :: alterEntries keys rest

def alterItems (keys : List String) : List Value → List Value
  | [] => []
  | item :: rest => alter keys item :: alterItems keys rest

end

end

theorem alter_leaf (leaf : isLeaf value = true) :
    alter ks keys value = if keys = ks then otherLeaf value else value := by
  cases value with
  | dict entries => cases leaf
  | list items => cases leaf
  | _ => rfl

theorem isLeaf_alter (leaf : isLeaf value = true) : isLeaf (alter ks keys value) = true := by
  rw [alter_leaf leaf]
  split
  · cases value <;> rfl
  · exact leaf

theorem alter_leaf_ne (leaf : isLeaf value = true) (equal : alter ks keys value = value) :
    keys ≠ ks := by
  intro here
  rw [alter_leaf leaf, if_pos here] at equal
  cases value <;> cases equal

mutual

theorem same_alter (free : ¬ P ks) (keys : List String) (value : Value) :
    SameExcept P keys value (alter ks keys value) := by
  cases value with
  | dict entries => exact ⟨_, rfl, sameEntries_alter free keys entries⟩
  | list items => exact ⟨_, rfl, sameItems_alter free keys items⟩
  | _ =>
    refine ⟨isLeaf_alter rfl, fun protect => ?_⟩
    have elsewhere : keys ≠ ks := fun here => free (here ▸ protect)
    rw [alter_leaf rfl, if_neg elsewhere]

theorem sameEntries_alter (free : ¬ P ks) (keys : List String) (entries : Entries) :
    SameEntries P keys entries (alterEntries ks keys entries) := by
  cases entries with
  | nil => rfl
  | cons entry rest =>
    exact ⟨_, _, rfl, same_alter free _ entry.2, sameEntries_alter free keys rest⟩

theorem sameItems_alter (free : ¬ P ks) (keys : List String) (items : List Value) :
    SameItems P keys items (alterItems ks keys items) := by
  cases items with
  | nil => rfl
  | cons item rest => exact ⟨_, _, rfl, same_alter free keys item, sameItems_alter free keys rest⟩

end

mutual

theorem unshown_leaf {ks keys : List String} {value : Value} (equal : alter ks keys value = value) :
    ks ∉ leafKeys keys value := by
  cases value with
  | dict entries => exact unshown_leafEntries (Value.dict.inj equal)
  | list items => exact unshown_leafItems (Value.list.inj equal)
  | _ => exact fun here => alter_leaf_ne rfl equal (List.mem_singleton.mp here).symm
termination_by structural value

theorem unshown_leafEntries {ks keys : List String} {entries : Entries}
    (equal : alterEntries ks keys entries = entries) : ks ∉ leafKeysOfEntries keys entries := by
  cases entries with
  | nil => exact List.not_mem_nil
  | cons entry rest =>
    obtain ⟨here, later⟩ := List.cons.inj equal
    exact List.not_mem_append (unshown_leaf (Prod.mk.inj here).2) (unshown_leafEntries later)
termination_by structural entries

theorem unshown_leafItems {ks keys : List String} {items : List Value}
    (equal : alterItems ks keys items = items) : ks ∉ leafKeysOfItems keys items := by
  cases items with
  | nil => exact List.not_mem_nil
  | cons item rest =>
    obtain ⟨here, later⟩ := List.cons.inj equal
    exact List.not_mem_append (unshown_leaf here) (unshown_leafItems later)
termination_by structural items

end

mutual

theorem unshown_mapping {path : String} {ks keys : List String} {entries : Entries}
    (equal : maskedEntries (projectMapping digest declared path (alterEntries ks keys entries)) =
      maskedEntries (projectMapping digest declared path entries)) :
    ks ∉ shownEntries keys (projectMapping digest declared path entries) := by
  cases entries with
  | nil => exact List.not_mem_nil
  | cons entry rest =>
    obtain ⟨here, later⟩ := List.cons.inj equal
    exact List.not_mem_append (unshown_field (Prod.mk.inj here).2) (unshown_mapping later)
termination_by structural entries

theorem unshown_field {path key : String} {ks keys : List String} {value : Value}
    (equal : (projectField digest declared path key (alter ks (keys ++ [key]) value)).masked =
      (projectField digest declared path key value).masked) :
    ks ∉ (projectField digest declared path key value).shown (keys ++ [key]) := by
  cases value with
  | dict entries =>
    simp only [alter, projectField] at equal ⊢
    split
    · rename_i atOutput
      rw [if_pos atOutput, if_pos atOutput] at equal
      exact unshown_output (Projected.mapping.inj equal)
    · rename_i outside
      rw [if_neg outside, if_neg outside] at equal
      split
      · rename_i allowed
        rw [if_pos allowed, if_pos allowed] at equal
        exact unshown_mapping (Projected.mapping.inj equal)
      · exact List.not_mem_nil
  | list items =>
    simp only [alter, projectField] at equal ⊢
    split
    · rename_i allowed
      rw [if_pos allowed, if_pos allowed] at equal
      exact unshown_items (Projected.list.inj equal)
    · exact List.not_mem_nil
  | _ =>
    rw [projectField_leaf (isLeaf_alter rfl), projectField_leaf rfl] at equal
    simp only [projectField]
    split
    · rename_i allowed
      rw [if_pos allowed, if_pos allowed] at equal
      exact fun here => alter_leaf_ne rfl (Projected.value.inj equal)
        (List.mem_singleton.mp here).symm
    · exact List.not_mem_nil
termination_by structural value

theorem unshown_output {ks keys : List String} {entries : Entries}
    (equal : maskedEntries (projectOutputMapping digest declared (alterEntries ks keys entries)) =
      maskedEntries (projectOutputMapping digest declared entries)) :
    ks ∉ shownEntries keys (projectOutputMapping digest declared entries) := by
  cases entries with
  | nil => exact List.not_mem_nil
  | cons entry rest =>
    obtain ⟨here, later⟩ := List.cons.inj equal
    replace here := (Prod.mk.inj here).2
    refine List.not_mem_append ?_ (unshown_output later)
    split
    · rename_i allowed
      rw [if_pos allowed, if_pos allowed] at here
      split
      · rename_i structured
        rw [if_pos structured, if_pos structured] at here
        exact unshown_leaf (Projected.value.inj here)
      · rename_i other
        rw [if_neg other, if_neg other] at here
        exact unshown_value here
    · exact List.not_mem_nil
termination_by structural entries

theorem unshown_value {path : String} {ks keys : List String} {value : Value}
    (equal : (projectValue digest declared path (alter ks keys value)).masked =
      (projectValue digest declared path value).masked) :
    ks ∉ (projectValue digest declared path value).shown keys := by
  cases value with
  | dict entries => exact unshown_mapping (Projected.mapping.inj equal)
  | list items => exact unshown_items (Projected.list.inj equal)
  | _ =>
    rw [projectValue_leaf (isLeaf_alter rfl), projectValue_leaf rfl] at equal
    exact fun here => alter_leaf_ne rfl (Projected.value.inj equal)
      (List.mem_singleton.mp here).symm
termination_by structural value

theorem unshown_items {path : String} {ks keys : List String} {items : List Value}
    (equal : maskedItems (projectItems digest declared path (alterItems ks keys items)) =
      maskedItems (projectItems digest declared path items)) :
    ks ∉ shownItems keys (projectItems digest declared path items) := by
  cases items with
  | nil => exact List.not_mem_nil
  | cons item rest =>
    obtain ⟨here, later⟩ := List.cons.inj equal
    exact List.not_mem_append (unshown_value here) (unshown_items later)
termination_by structural items

end

end

mutual

/-- No key contains a dot, and no mapping stands at a key `output`. -/
def plainValue : Value → Bool
  | .dict entries => plainEntries false entries
  | .list items => plainItems items
  | _ => true

/-- At the top, a mapping may stand at the key `output`. -/
def plainEntries (top : Bool) : Entries → Bool
  | [] => true
  | (key, value) :: rest => !key.toList.contains '.' &&
    (top || !(key == "output" && value.isDict)) && plainValue value && plainEntries top rest

def plainItems : List Value → Bool
  | [] => true
  | item :: rest => plainValue item && plainItems rest

end

structure Spells (path : String) (keys : List String) : Prop where
  given : path ≠ ""
  split : splitDots path = keys

theorem splitDots_plain (plain : '.' ∉ key.toList) : splitDots key = [key] := by
  rw [splitDots, List.splitOn_eq_singleton plain, List.map_singleton, String.ofList_toList]

theorem splitDots_append (path : String) (plain : '.' ∉ key.toList) :
    splitDots (path ++ "." ++ key) = splitDots path ++ [key] := by
  have letters : (path ++ "." ++ key).toList = path.toList ++ '.' :: key.toList := by
    rw [String.toList_append, String.toList_append, List.append_assoc]
    rfl
  rw [splitDots, letters, List.splitOn_append_cons_self, List.splitOn_eq_singleton plain,
    List.map_append, List.map_singleton, String.ofList_toList]
  rfl

theorem Spells.child (spells : Spells path keys) (plain : '.' ∉ key.toList) :
    Spells (childPath path key) (keys ++ [key]) := by
  rw [childPath, if_neg spells.given]
  refine ⟨fun empty => ?_, ?_⟩
  · have letters := congrArg String.length empty
    rw [String.length_append, String.length_append] at letters
    have dot : ".".length = 1 := rfl
    have none : "".length = 0 := rfl
    omega
  · rw [splitDots_append path plain, spells.split]

theorem head_of_startsWithOutput (starts : startsWithOutput path = true) :
    (splitDots path).head? = some "output" := by
  obtain ⟨rest, same⟩ := List.isPrefixOf_iff_prefix.mp starts
  have letters : path.toList = "output".toList ++ '.' :: rest := by rw [← same]; rfl
  rw [splitDots, letters, List.splitOn_append_cons_self_of_not_mem (by decide), List.map_cons]
  rfl

section

variable {digest : Value → String} {declared : List String}

theorem ownPermission_of_allowed (spells : Spells path (keys ++ [key])) {top : Bool}
    (allowed : fieldAllowed declared path key top = true) (above : top = true → keys = []) :
    ownPermission declared (keys ++ [key]) = true := by
  rw [fieldAllowed, Bool.or_eq_true, Bool.or_eq_true] at allowed
  rw [ownPermission, Bool.or_eq_true, Bool.or_eq_true]
  rcases allowed with (exact_ | safe) | below
  · refine .inl (.inl (List.any_eq_true.mpr ⟨path, List.contains_iff_mem.mp exact_, ?_⟩))
    exact decide_eq_true spells.split
  · obtain ⟨atTop, safe⟩ := Bool.and_eq_true_iff.mp safe
    rw [above atTop]
    exact .inl (.inr safe)
  · obtain ⟨starts, safe⟩ := Bool.and_eq_true_iff.mp below
    have head := head_of_startsWithOutput starts
    rw [spells.split] at head
    rw [head, List.getLastD_concat, safe]
    exact .inr rfl

theorem permitted_of_own (own : ownPermission declared keys = true) :
    permitted declared keys = true := by
  rw [permitted, own]
  rfl

mutual

theorem leafKeys_below {keys ks : List String} {value : Value} (member : ks ∈ leafKeys keys value) :
    ∃ rest, ks = keys ++ rest := by
  cases value with
  | dict entries => exact leafKeysOfEntries_below member
  | list items => exact leafKeysOfItems_below member
  | _ => exact ⟨[], by rw [List.append_nil]; exact List.mem_singleton.mp member⟩
termination_by structural value

theorem leafKeysOfEntries_below {keys ks : List String} {entries : Entries}
    (member : ks ∈ leafKeysOfEntries keys entries) : ∃ rest, ks = keys ++ rest := by
  cases entries with
  | nil => cases member
  | cons entry rest =>
    obtain ⟨key, value⟩ := entry
    rcases List.mem_append.mp member with here | later
    · obtain ⟨below, same⟩ := leafKeys_below here
      exact ⟨key :: below, by rw [same, List.append_assoc]; rfl⟩
    · exact leafKeysOfEntries_below later
termination_by structural entries

theorem leafKeysOfItems_below {keys ks : List String} {items : List Value}
    (member : ks ∈ leafKeysOfItems keys items) : ∃ rest, ks = keys ++ rest := by
  cases items with
  | nil => cases member
  | cons item rest =>
    rcases List.mem_append.mp member with here | later
    · exact leafKeys_below here
    · exact leafKeysOfItems_below later
termination_by structural items

end

mutual

theorem permitted_mapping {path : String} {keys ks : List String} {entries : Entries}
    (spells : Spells path keys) (plain : plainEntries false entries = true)
    (shown : ks ∈ shownEntries keys (projectMapping digest declared path entries)) :
    permitted declared ks = true := by
  cases entries with
  | nil => cases shown
  | cons entry rest =>
    obtain ⟨key, value⟩ := entry
    simp only [plainEntries, Bool.and_eq_true, Bool.false_or, Bool.not_eq_true',
      List.contains_eq_mem, decide_eq_false_iff_not] at plain
    obtain ⟨⟨⟨undotted, unnested⟩, inner⟩, later⟩ := plain
    rcases List.mem_append.mp shown with here | there
    · exact permitted_field spells undotted unnested inner here
    · exact permitted_mapping spells later there
termination_by structural entries

theorem permitted_field {path key : String} {keys ks : List String} {value : Value}
    (spells : Spells path keys) (undotted : '.' ∉ key.toList)
    (unnested : (key == "output" && value.isDict) = false) (plain : plainValue value = true)
    (shown : ks ∈ (projectField digest declared path key value).shown (keys ++ [key])) :
    permitted declared ks = true := by
  have child := spells.child undotted
  have own : fieldAllowed declared (childPath path key) key (path = "") = true →
      ownPermission declared (keys ++ [key]) = true := fun allowed =>
    ownPermission_of_allowed child allowed fun top => absurd (of_decide_eq_true top) spells.given
  cases value with
  | dict entries =>
    have outside : key ≠ "output" := by
      rintro rfl
      cases unnested
    rw [projectField, if_neg outside] at shown
    split at shown
    · exact permitted_mapping child plain shown
    · cases shown
  | list items =>
    rw [projectField] at shown
    split at shown
    · exact permitted_items child (own ‹_›) plain shown
    · cases shown
  | _ =>
    simp only [projectField] at shown
    split at shown
    · rw [List.mem_singleton.mp shown]
      exact permitted_of_own (own ‹_›)
    · cases shown
termination_by structural value

theorem permitted_value {path : String} {keys ks : List String} {value : Value}
    (spells : Spells path keys) (own : ownPermission declared keys = true)
    (plain : plainValue value = true)
    (shown : ks ∈ (projectValue digest declared path value).shown keys) :
    permitted declared ks = true := by
  cases value with
  | dict entries => exact permitted_mapping spells plain shown
  | list items => exact permitted_items spells own plain shown
  | _ =>
    rw [List.mem_singleton.mp shown]
    exact permitted_of_own own
termination_by structural value

theorem permitted_items {path : String} {keys ks : List String} {items : List Value}
    (spells : Spells path keys) (own : ownPermission declared keys = true)
    (plain : plainItems items = true)
    (shown : ks ∈ shownItems keys (projectItems digest declared path items)) :
    permitted declared ks = true := by
  cases items with
  | nil => cases shown
  | cons item rest =>
    simp only [plainItems, Bool.and_eq_true] at plain
    rcases List.mem_append.mp shown with here | later
    · exact permitted_value spells own plain.1 here
    · exact permitted_items spells own plain.2 later
termination_by structural items

end

theorem spells_output (undotted : '.' ∉ key.toList) :
    Spells ("output." ++ key) (["output"] ++ [key]) := by
  have spelled : Spells "output" ["output"] := ⟨by decide, splitDots_plain (by decide)⟩
  exact spelled.child undotted

theorem permitted_output {entries : Entries} (plain : plainEntries false entries = true)
    (shown : ks ∈ shownEntries ["output"] (projectOutputMapping digest declared entries)) :
    permitted declared ks = true := by
  induction entries with
  | nil => cases shown
  | cons entry rest ih =>
    obtain ⟨key, value⟩ := entry
    simp only [plainEntries, Bool.and_eq_true, Bool.false_or, Bool.not_eq_true',
      List.contains_eq_mem, decide_eq_false_iff_not] at plain
    obtain ⟨⟨⟨undotted, -⟩, inner⟩, later⟩ := plain
    rw [projectOutputMapping, shownEntries] at shown
    rcases List.mem_append.mp shown with here | there
    · split at here
      · rename_i allowed
        have spells := spells_output undotted
        have own := ownPermission_of_allowed spells allowed fun top => nomatch top
        split at here
        · rename_i structured
          -- everything below a structured field is shown
          obtain ⟨below, rfl⟩ := leafKeys_below here
          rw [permitted, Bool.or_eq_true]
          exact .inr (Bool.and_eq_true_iff.mpr ⟨structured, own⟩)
        · exact permitted_value spells own inner here
      · cases here
    · exact ih later there

theorem ne_empty_of_allowed {top : Bool} (named : "" ∉ declared)
    (allowed : fieldAllowed declared key key top = true) : key ≠ "" := by
  rintro rfl
  rw [fieldAllowed, Bool.or_eq_true, Bool.or_eq_true] at allowed
  rcases allowed with (listed | safe) | below
  · exact named (List.contains_iff_mem.mp listed)
  · exact absurd (Bool.and_eq_true_iff.mp safe).2 (by decide)
  · exact absurd (Bool.and_eq_true_iff.mp below).2 (by decide)

theorem permitted_payload {payload : Entries} (named : "" ∉ declared)
    (plain : plainEntries true payload = true)
    (shown : ks ∈ shownEntries [] (projectMapping digest declared "" payload)) :
    permitted declared ks = true := by
  induction payload with
  | nil => cases shown
  | cons entry rest ih =>
    obtain ⟨key, value⟩ := entry
    simp only [plainEntries, Bool.and_eq_true, Bool.true_or, Bool.not_eq_true',
      List.contains_eq_mem, decide_eq_false_iff_not, and_true] at plain
    obtain ⟨⟨undotted, inner⟩, later⟩ := plain
    have spells : fieldAllowed declared key key true = true → Spells key ([] ++ [key]) :=
      fun allowed => ⟨ne_empty_of_allowed named allowed, splitDots_plain undotted⟩
    have own : fieldAllowed declared key key true = true →
        ownPermission declared ([] ++ [key]) = true :=
      fun allowed => ownPermission_of_allowed (spells allowed) allowed fun _ => rfl
    rw [projectMapping, shownEntries] at shown
    rcases List.mem_append.mp shown with here | there
    · cases value with
      | dict entries =>
        rw [projectField] at here
        split at here
        · rename_i atOutput
          subst atOutput
          exact permitted_output inner here
        · split at here
          · exact permitted_mapping (spells ‹_›) inner here
          · cases here
      | list items =>
        rw [projectField] at here
        split at here
        · exact permitted_items (spells ‹_›) (own ‹_›) inner here
        · cases here
      | _ =>
        simp only [projectField] at here
        split at here
        · rw [List.mem_singleton.mp here]
          exact permitted_of_own (own ‹_›)
        · cases here
    · exact ih later there

theorem not_mem_declaredFields (allowlist : List String) : "" ∉ declaredFields allowlist := by
  intro member
  exact absurd rfl (of_decide_eq_true (List.mem_filter.mp member).2)

end

def shownKeys (digest : Value → String) (allowlist : List String) (payload : Entries) :
    List (List String) :=
  (projectPublicPayload digest allowlist payload).shown []

/-- The projection depends on permitted leaves only if and only if every leaf it shows is
permitted. -/
theorem noninterfering_iff (digest : Value → String) (allowlist : List String)
    (payload : Entries) :
    (Noninterfering digest allowlist payload ↔
      ∀ keys ∈ shownKeys digest allowlist payload,
        permitted (declaredFields allowlist) keys = true) ∧
    (plainEntries true payload = true →
      ∀ keys ∈ shownKeys digest allowlist payload,
        permitted (declaredFields allowlist) keys = true) := by
  refine ⟨⟨fun noninterfering keys shown => ?_, fun covered other same => ?_⟩,
    fun plain keys shown => permitted_payload (not_mem_declaredFields allowlist) plain shown⟩
  · by_contra leaked
    have equal := noninterfering (alterEntries keys [] payload)
      (sameEntries_alter leaked [] payload)
    exact unshown_mapping (Projected.mapping.inj equal).symm shown
  · exact congrArg Projected.mapping (masked_mapping same covered)

def stepResult : Entries :=
  [("step_id", .str "inspect"), ("output", .dict [("stdout", .str "host-1 up"),
    ("status_code", .int 200), ("before_state", .dict [("role", .str "primary")])])]

theorem stepResult_noninterfering :
    shownKeys (fun _ => "") [] stepResult = [["step_id"], ["output", "status_code"]] ∧
      Noninterfering (fun _ => "") [] stepResult := by
  have both := noninterfering_iff (fun _ => "") [] stepResult
  exact ⟨by decide +kernel, both.1.mpr (both.2 (by decide +kernel))⟩

def nestedOutput (errorClass : String) : Entries :=
  [("error", .dict [("output", .dict [("error_class", .str errorClass)])])]

theorem nestedOutput_shown :
    permitted (declaredFields []) ["error", "output", "error_class"] = false ∧
      SameEntries (fun keys => permitted (declaredFields []) keys = true) []
        (nestedOutput "db-07") (nestedOutput "db-08") ∧
      (projectPublicPayload (fun _ => "") [] (nestedOutput "db-07")).masked ≠
        (projectPublicPayload (fun _ => "") [] (nestedOutput "db-08")).masked := by
  have refused : permitted (declaredFields []) ["error", "output", "error_class"] = false := by
    decide +kernel
  have shows : ∀ errorClass,
      (projectPublicPayload (fun _ => "") [] (nestedOutput errorClass)).masked =
        .mapping [("error", .mapping [("output", .mapping
          [("error_class", .value (.str errorClass))])])] := fun _ => rfl
  refine ⟨refused,
    ⟨_, _, rfl, ⟨_, rfl, _, _, rfl, ⟨_, rfl, _, _, rfl, ⟨rfl, ?_⟩, rfl⟩, rfl⟩, rfl⟩, ?_⟩
  · intro allowed
    exact absurd (refused.symm.trans allowed) (by decide)
  · rw [shows, shows]
    simp

end RExecOp.PublicProjection
