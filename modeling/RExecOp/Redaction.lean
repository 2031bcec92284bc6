import Mathlib.Data.List.Sort
import RExecOp.Lib.Spans
import RExecOp.Value

/-! Redaction of texts and payloads (`evidence/redaction.py`). The patterns of
well-known secrets are a parameter: each cuts a text at the spans it matches. -/

namespace RExecOp.Redaction

def redacted : String := "[REDACTED]"

def minSecretLength : Nat := 4

structure Registry where
  secrets : List String
  long : ∀ secret ∈ secrets, minSecretLength ≤ secret.length

def Registry.empty : Registry := ⟨[], nofun⟩

def registerSecretValue (registry : Registry) (value : String) : Registry :=
  if short : value.length < minSecretLength then registry
  else if value ∈ registry.secrets then registry
  else ⟨value :: registry.secrets, fun secret member => by
    rcases List.mem_cons.mp member with rfl | old
    · exact Nat.le_of_not_lt short
    · exact registry.long secret old⟩

/-- A pattern, by where it cuts a text. -/
structure TextPattern where
  cut : List Char → Cut Char
  whole : ∀ text, (cut text).text = text

def TextPattern.sub (pattern : TextPattern) (text : String) : String :=
  String.ofList ((pattern.cut text.toList).replaced redacted.toList)

def replaceSecret (text secret : String) : String :=
  String.ofList (replaceAll secret.toList redacted.toList text.toList)

section

variable (registry : Registry) (patterns : List TextPattern)

def redactText (value : String) : String :=
  let registered := registry.secrets.insertionSort fun a b => b.length ≤ a.length
  patterns.foldl (fun text pattern => pattern.sub text) (registered.foldl replaceSecret value)

def secretKeyWords : List String :=
  ["password", "passwd", "secret", "token", "api_key", "apikey", "private_key", "credential",
    "authorization", "auth_header"]

def ignoreCase (c : Char) : Char :=
  if c = 'ſ' then 's' else if c = 'K' then 'k' else if c = 'İ' ∨ c = 'ı' then 'i'
  else c.toLower

def isSecretKey (key : String) : Bool :=
  let letters := key.toList.map ignoreCase
  secretKeyWords.any fun word => letters.tails.any fun rest => word.toList.isPrefixOf rest

mutual

def redactPayload : Value → Value
  | .str s => .str (redactText registry patterns s)
  | .list items => .list (redactItems items)
  | .dict entries => .dict (redactEntries entries)
  | value => value

def redactItems : List Value → List Value
  | [] => []
  | item :: rest => redactPayload item :: redactItems rest

def redactEntries : Entries → Entries
  | [] => []
  | (key, item) :: rest =>
    (key, if isSecretKey key then .str redacted else redactPayload item) :: redactEntries rest

end

end

mutual

/-- The texts that stand at the leaves of a value. -/
def leaves : Value → List String
  | .str s => [s]
  | .list items => leavesOfItems items
  | .dict entries => leavesOfEntries entries
  | _ => []

def leavesOfItems : List Value → List String
  | [] => []
  | item :: rest => leaves item ++ leavesOfItems rest

def leavesOfEntries : Entries → List String
  | [] => []
  | (_, item) :: rest => leaves item ++ leavesOfEntries rest

end

def Occurs (secret text : String) : Prop := secret.toList <:+: text.toList

/-- The secret has no bracket in it and is no part of the marker. -/
structure Plain (secret : String) : Prop where
  noOpening : '[' ∉ secret.toList
  noClosing : ']' ∉ secret.toList
  noPart : ¬ Occurs secret redacted

section

variable {secret : String}

theorem Plain.apart (plain : Plain secret) :
    Apart secret.toList '[' "REDACTED".toList ']' where
  opens := plain.noOpening
  closes := plain.noClosing
  outside inside := plain.noPart (inside.trans ⟨['['], [']'], rfl⟩)

theorem occurs_replaceSecret (plain : Plain secret) {text other : String}
    (given : other.toList ≠ []) (occurs : Occurs secret (replaceSecret text other)) :
    Occurs secret text := by
  rw [Occurs, replaceSecret, String.toList_ofList] at occurs
  exact plain.apart.infix_replaceAll given occurs

theorem not_occurs_replaceSecret (plain : Plain secret) (given : secret.toList ≠ [])
    (text : String) : ¬ Occurs secret (replaceSecret text secret) := by
  rw [Occurs, replaceSecret, String.toList_ofList]
  exact plain.apart.not_infix_replaceAll given text.toList

theorem occurs_sub (plain : Plain secret) {pattern : TextPattern} {text : String}
    (occurs : Occurs secret (pattern.sub text)) : Occurs secret text := by
  rw [Occurs, TextPattern.sub, String.toList_ofList] at occurs
  have before := plain.apart.infix_replaced occurs
  rwa [pattern.whole] at before

theorem occurs_foldl_replaceSecret (plain : Plain secret) {others : List String} {text : String}
    (given : ∀ other ∈ others, other.toList ≠ [])
    (occurs : Occurs secret (others.foldl replaceSecret text)) : Occurs secret text := by
  induction others generalizing text with
  | nil => exact occurs
  | cons other rest ih =>
    have later := ih (fun next member => given next (List.mem_cons_of_mem _ member)) occurs
    exact occurs_replaceSecret plain (given other List.mem_cons_self) later

theorem not_occurs_foldl_replaceSecret (plain : Plain secret) {others : List String}
    {text : String} (given : ∀ other ∈ others, other.toList ≠ []) (member : secret ∈ others) :
    ¬ Occurs secret (others.foldl replaceSecret text) := by
  obtain ⟨before, after, rfl⟩ := List.append_of_mem member
  rw [List.foldl_append, List.foldl_cons]
  intro occurs
  have here := occurs_foldl_replaceSecret plain (fun other later =>
    given other (List.mem_append_right _ (List.mem_cons_of_mem _ later))) occurs
  exact not_occurs_replaceSecret plain (given secret member) _ here

theorem occurs_foldl_sub (plain : Plain secret) {patterns : List TextPattern} {text : String}
    (occurs : Occurs secret (patterns.foldl (fun text pattern => pattern.sub text) text)) :
    Occurs secret text := by
  induction patterns generalizing text with
  | nil => exact occurs
  | cons pattern rest ih => exact occurs_sub plain (ih occurs)

variable {registry : Registry} {patterns : List TextPattern}

theorem Registry.given (registry : Registry) {secret : String}
    (member : secret ∈ registry.secrets) : secret.toList ≠ [] := by
  intro empty
  have long := registry.long secret member
  rw [← String.length_toList, empty] at long
  exact absurd long (by decide)

theorem not_occurs_redactText (plain : Plain secret) (member : secret ∈ registry.secrets)
    (value : String) : ¬ Occurs secret (redactText registry patterns value) := by
  intro occurs
  refine not_occurs_foldl_replaceSecret plain (fun other here => ?_) ?_
    (occurs_foldl_sub plain occurs)
  · exact registry.given ((List.mem_insertionSort _).mp here)
  · exact (List.mem_insertionSort _).mpr member

mutual

theorem not_occurs_redactPayload (plain : Plain secret) (member : secret ∈ registry.secrets)
    (value : Value) : ∀ leaf ∈ leaves (redactPayload registry patterns value),
      ¬ Occurs secret leaf := by
  cases value with
  | str s =>
    intro leaf here
    rw [redactPayload, leaves, List.mem_singleton] at here
    rw [here]
    exact not_occurs_redactText plain member s
  | list items =>
    rw [redactPayload, leaves]
    exact not_occurs_redactItems plain member items
  | dict entries =>
    rw [redactPayload, leaves]
    exact not_occurs_redactEntries plain member entries
  | null => exact nofun
  | bool b => exact nofun
  | int n => exact nofun
  | float q => exact nofun

theorem not_occurs_redactItems (plain : Plain secret) (member : secret ∈ registry.secrets)
    (items : List Value) : ∀ leaf ∈ leavesOfItems (redactItems registry patterns items),
      ¬ Occurs secret leaf := by
  cases items with
  | nil => exact nofun
  | cons item rest =>
    intro leaf here
    rw [redactItems, leavesOfItems] at here
    rcases List.mem_append.mp here with first | later
    · exact not_occurs_redactPayload plain member item leaf first
    · exact not_occurs_redactItems plain member rest leaf later

theorem not_occurs_redactEntries (plain : Plain secret) (member : secret ∈ registry.secrets)
    (entries : Entries) : ∀ leaf ∈ leavesOfEntries (redactEntries registry patterns entries),
      ¬ Occurs secret leaf := by
  cases entries with
  | nil => exact nofun
  | cons entry rest =>
    obtain ⟨key, item⟩ := entry
    intro leaf here
    rw [redactEntries, leavesOfEntries] at here
    rcases List.mem_append.mp here with first | later
    · split at first
      · rw [leaves, List.mem_singleton] at first
        rw [first]
        exact plain.noPart
      · exact not_occurs_redactPayload plain member item leaf first
    · exact not_occurs_redactEntries plain member rest leaf later

end

end

/-- A registered secret survives neither in a redacted text nor at a leaf of a redacted payload. -/
theorem registered_secret_removed (registry : Registry) (patterns : List TextPattern)
    {secret : String} (member : secret ∈ registry.secrets) (plain : Plain secret) :
    (∀ text, ¬ Occurs secret (redactText registry patterns text)) ∧
      ∀ value, ∀ leaf ∈ leaves (redactPayload registry patterns value), ¬ Occurs secret leaf :=
  ⟨not_occurs_redactText plain member, not_occurs_redactPayload plain member⟩

/-- Two secrets that overlap, the longer one registered last. -/
def overlapping : Registry :=
  registerSecretValue (registerSecretValue .empty "hunter2") "s3cret-hunter"

theorem overlapping_removed :
    (overlapping.secrets = ["s3cret-hunter", "hunter2"] ∧
      redactText overlapping [] "s3cret-hunter2 hunter2" = "[REDACTED]2 [REDACTED]") ∧
    (∀ text, ¬ Occurs "hunter2" (redactText overlapping [] text)) ∧
      ∀ value, ∀ leaf ∈ leaves (redactPayload overlapping [] value), ¬ Occurs "hunter2" leaf :=
  ⟨by decide +kernel, registered_secret_removed overlapping [] (by decide +kernel)
    ⟨by decide +kernel, by decide +kernel, by unfold Occurs; decide +kernel⟩⟩

end RExecOp.Redaction
