import RExecOp.Lib.Results
import RExecOp.Redaction

/-! The check for inline secrets (`environment/sanitize.py`). In a list the key is no longer
known, and only well-known secrets are looked for. -/

namespace RExecOp.InlineSecrets
open Redaction Results

def forbiddenKeyWords : List String :=
  ["password", "passwd", "secret", "token", "api_key", "apikey", "private_key", "credential"]

def isForbiddenKey (key : String) : Bool :=
  let letters := key.toList.map ignoreCase
  forbiddenKeyWords.any fun word =>
    word.toList.isSuffixOf letters || (word.toList ++ ['\n']).isSuffixOf letters

def isReferenceKey (key : String) : Bool := "_ref".toList.isSuffixOf key.toList

def isInlineSecretKey (key : String) : Bool :=
  -- the only one of `NON_SECRET_METADATA_KEYS`
  if key.toList.map Char.toLower = "secrets_source".toList then false
  else if isReferenceKey key then false
  else isForbiddenKey key || isSecretKey key

def blank : Value → Bool
  | .null => true
  | .str s => s = ""
  | _ => false

section

variable (patterns : List TextPattern)

def containsStrongSecretPattern (text : String) : Bool :=
  patterns.dropLast.any fun pattern => !(pattern.cut text.toList).spans.isEmpty

def checkMaterial (path : String) : Value → Except String Unit
  | .str s =>
    if containsStrongSecretPattern patterns s then
      throw s!"inline secret material forbidden at {path}; use secret_ref"
    else pure ()
  | _ => pure ()

def checkScalar (key : Option String) (path : String) (item : Value) : Except String Unit := do
  if key.any (fun key => isInlineSecretKey key && !isReferenceKey key) ∧ ¬ blank item then
    throw s!"inline secret-like value forbidden at {path}; use secret_ref"
  checkMaterial patterns path item

mutual

def sanitizeMapping (path : String) : Entries → Except String Entries
  | [] => pure []
  | (key, item) :: rest => do
    let cleaned ← sanitizeItem (some key) s!"{path}.{key}" item
    let others ← sanitizeMapping path rest
    return (key, cleaned) :: others

/-- An item with its key, or `_sanitize_value` of one without. -/
def sanitizeItem (key : Option String) (path : String) : Value → Except String Value
  | .dict entries => do
    let cleaned ← sanitizeMapping path entries
    return .dict cleaned
  | .list items => do
    let cleaned ← sanitizeItems s!"{path}[]" items
    return .list cleaned
  | item => do
    checkScalar patterns key path item
    return item

def sanitizeItems (path : String) : List Value → Except String (List Value)
  | [] => pure []
  | item :: rest => do
    let cleaned ← sanitizeItem none path item
    let others ← sanitizeItems path rest
    return cleaned :: others

end

def validateNoInlineSecrets (value : Entries) : Except String Unit := do
  let _ ← sanitizeMapping patterns "environment" value

end

/-- A scalar with the key of the nearest mapping, and whether a list is between. -/
structure Place where
  key : String
  listed : Bool
  scalar : Value

mutual

def places (key : String) (listed : Bool) : Value → List Place
  | .dict entries => placesOfEntries entries
  | .list items => placesOfItems key items
  | value => [⟨key, listed, value⟩]

def placesOfItems (key : String) : List Value → List Place
  | [] => []
  | item :: rest => places key true item ++ placesOfItems key rest

def placesOfEntries : Entries → List Place
  | [] => []
  | (key, item) :: rest => places key false item ++ placesOfEntries rest

end

structure Place.Admitted (patterns : List TextPattern) (place : Place) : Prop where
  direct : place.listed = false → isInlineSecretKey place.key = true → blank place.scalar = true
  material : ∀ s, place.scalar = .str s → containsStrongSecretPattern patterns s = false

section

variable {patterns : List TextPattern} {path : String}

theorem isReferenceKey_of_secret {key : String} (secret : isInlineSecretKey key = true) :
    isReferenceKey key = false := by
  unfold isInlineSecretKey at secret
  split at secret
  · contradiction
  · split at secret
    · contradiction
    · simpa using ‹¬ isReferenceKey key = true›

theorem checkMaterial_ok_iff {value : Value} :
    checkMaterial patterns path value = .ok () ↔
      ∀ s, value = .str s → containsStrongSecretPattern patterns s = false := by
  cases value with
  | str s =>
    cases found : containsStrongSecretPattern patterns s <;>
      simp [checkMaterial, found, throw, throwThe, MonadExceptOf.throw, pure, Except.pure]
  | _ => simp [checkMaterial, pure, Except.pure]

theorem checkScalar_ok_iff (key : String) (listed : Bool) (path : String) (item : Value) :
    checkScalar patterns (if listed then none else some key) path item = .ok () ↔
      Place.Admitted patterns ⟨key, listed, item⟩ := by
  rw [checkScalar, check_eq_ok, checkMaterial_ok_iff]
  constructor
  · rintro ⟨kept, material⟩
    refine ⟨?_, material⟩
    rintro rfl secret
    simpa [secret, isReferenceKey_of_secret secret] using kept
  · rintro ⟨direct, material⟩
    refine ⟨?_, material⟩
    cases listed with
    | true => simp
    | false => simpa using fun secret _ => direct rfl secret

-- The induction is on the value, with the items of a list and the entries of a mapping.
mutual

theorem sanitizeItem_ok_iff (key : String) (listed : Bool) (path : String) (item cleaned : Value) :
    sanitizeItem patterns (if listed then none else some key) path item = .ok cleaned ↔
      item = cleaned ∧ ∀ place ∈ places key listed item, place.Admitted patterns := by
  cases item with
  | dict entries =>
    simp only [sanitizeItem, places, bind_eq_ok, return_eq_ok, sanitizeMapping_ok_iff path entries,
      and_assoc, exists_eq_left']
    exact and_comm
  | list items =>
    simp only [sanitizeItem, places, bind_eq_ok, return_eq_ok, sanitizeItems_ok_iff key _ items,
      and_assoc, exists_eq_left']
    exact and_comm
  | _ =>
    simp only [sanitizeItem, places, bind_eq_ok, return_eq_ok, List.forall_mem_singleton,
      Unique.exists_iff, PUnit.default_eq_unit, checkScalar_ok_iff, and_comm]

theorem sanitizeItems_ok_iff (key path : String) (items cleaned : List Value) :
    sanitizeItems patterns path items = .ok cleaned ↔
      items = cleaned ∧ ∀ place ∈ placesOfItems key items, place.Admitted patterns := by
  cases items with
  | nil => simp [sanitizeItems, placesOfItems, return_eq_ok]
  | cons item rest =>
    have first := sanitizeItem_ok_iff key true path item
    simp only [if_true] at first
    simp only [sanitizeItems, placesOfItems, bind_eq_ok, return_eq_ok, first,
      sanitizeItems_ok_iff key path rest, List.forall_mem_append, and_assoc, exists_eq_left']
    tauto

theorem sanitizeMapping_ok_iff (path : String) (entries cleaned : Entries) :
    sanitizeMapping patterns path entries = .ok cleaned ↔
      entries = cleaned ∧ ∀ place ∈ placesOfEntries entries, place.Admitted patterns := by
  cases entries with
  | nil => simp [sanitizeMapping, placesOfEntries, return_eq_ok]
  | cons entry rest =>
    obtain ⟨key, item⟩ := entry
    have first := fun path => sanitizeItem_ok_iff key false path item
    simp only [Bool.false_eq_true, if_false] at first
    simp only [sanitizeMapping, placesOfEntries, bind_eq_ok, return_eq_ok, first,
      sanitizeMapping_ok_iff path rest, List.forall_mem_append, and_assoc, exists_eq_left']
    tauto

end

theorem validateNoInlineSecrets_ok_iff {value : Entries} :
    validateNoInlineSecrets patterns value = .ok () ↔
      ∀ place ∈ placesOfEntries value, place.Admitted patterns := by
  simp only [validateNoInlineSecrets, bind_eq_ok, return_eq_ok, sanitizeMapping_ok_iff, and_true,
    exists_eq_left']

end

def Place.Blank (place : Place) : Prop :=
  isInlineSecretKey place.key = true → blank place.scalar = true

/-- An accepted mapping has only blanks under secret keys, unless in a list. -/
theorem accepted_blank_iff (patterns : List TextPattern) {value : Entries}
    (accepted : validateNoInlineSecrets patterns value = .ok ()) :
    (∀ place ∈ placesOfEntries value, place.Blank) ↔
      ∀ place ∈ placesOfEntries value, place.listed = true → place.Blank := by
  have admitted := validateNoInlineSecrets_ok_iff.mp accepted
  constructor
  · intro all place member _
    exact all place member
  · intro lists place member
    cases within : place.listed with
    | true => exact lists place member within
    | false => exact (admitted place member).direct within

instance (place : Place) : Decidable place.Blank :=
  inferInstanceAs (Decidable (_ → _))

def referenced : Entries :=
  [("auth", .dict [("secret_ref", .str "api"), ("password", .null)]),
    ("tokens", .list [.null, .str ""]), ("hosts", .list [.str "a"])]

theorem referenced_blank :
    validateNoInlineSecrets [] referenced = .ok () ∧
      (∀ place ∈ placesOfEntries referenced, place.listed = true → place.Blank) ∧
      ∀ place ∈ placesOfEntries referenced, place.Blank := by
  have accepted : validateNoInlineSecrets [] referenced = .ok () := by decide +kernel
  have listed : ∀ place ∈ placesOfEntries referenced, place.listed = true → place.Blank := by
    decide +kernel
  exact ⟨accepted, listed, (accepted_blank_iff [] accepted).mpr listed⟩

/-- The password is refused on its own and accepted in a list. -/
theorem listed_password_accepted :
    validateNoInlineSecrets [] [("password", .str "hunter2")] =
        .error "inline secret-like value forbidden at environment.password; use secret_ref" ∧
      validateNoInlineSecrets [] [("password", .list [.str "hunter2"])] = .ok () ∧
      ¬ ∀ place ∈ placesOfEntries [("password", .list [.str "hunter2"])], place.Blank := by
  refine ⟨by decide +kernel, by decide +kernel, ?_⟩
  intro all
  have shown := all ⟨"password", true, .str "hunter2"⟩
    (by simp [placesOfEntries, places, placesOfItems])
  exact absurd (shown (by decide +kernel)) (by decide)

end RExecOp.InlineSecrets
