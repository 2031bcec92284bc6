import RExecOp.BoundedSubprocess
import RExecOp.Lib.Json

/-! The evidence of an exceeded output limit (`connectors/local_shell.py`) and the executor's
own check of it (`execution/executor.py`). -/

namespace RExecOp.OutputLimitEvidence

open BoundedSubprocess Commands Redaction

def evidenceSchema : String := "rexecop.output_limit_evidence.v0.1"

def evidenceMaxBytes : Nat := 2048

def exactDictValue : Value → String → Option Value
  | .dict entries, key => entries.lookup key
  | _, _ => none

def exactStr : Option Value → Option String
  | some (.str s) => some s
  | _ => none

def exactBool : Option Value → Option Bool
  | some (.bool b) => some b
  | _ => none

def exactDict : Option Value → Option Value
  | some (.dict entries) => some (.dict entries)
  | _ => none

def exactNonnegativeInt : Option Value → Option Int
  | some (.int n) => if 0 ≤ n then some n else none
  | _ => none

def exactPositiveInt (value : Option Value) : Option Int := do
  let n ← exactNonnegativeInt value
  if 0 < n then some n else none

def isSha256Digest (value : String) : Bool :=
  "sha256:".toList.isPrefixOf value.toList && (value.toList.drop 7).length == 64 &&
    (value.toList.drop 7).all hexDigits.contains

structure Counts where
  stdoutDigest : String
  stderrDigest : String
  stdoutBytes : Int
  stderrBytes : Int
  totalBytes : Int
  outputLimit : Int
  stdoutTruncated : Bool
  stderrTruncated : Bool

def readCounts (output : Value) : Option Counts := do
  let errorClass ← exactStr (exactDictValue output "error_class")
  guard (errorClass = "output_limit_exceeded")
  let data ← exactDict (exactDictValue output "data")
  let dataErrorClass ← exactStr (exactDictValue data "error_class")
  guard (dataErrorClass = "output_limit_exceeded")
  let exceeded ← exactBool (exactDictValue data "output_limit_exceeded")
  guard (exceeded = true)
  let digests ← exactDict (exactDictValue data "output_digests")
  let sizes ← exactDict (exactDictValue data "output_sizes")
  let truncated ← exactDict (exactDictValue data "output_truncated")
  let stdoutDigest ← exactStr (exactDictValue digests "stdout")
  let stderrDigest ← exactStr (exactDictValue digests "stderr")
  let stdoutBytes ← exactNonnegativeInt (exactDictValue sizes "stdout_bytes")
  let stderrBytes ← exactNonnegativeInt (exactDictValue sizes "stderr_bytes")
  let totalBytes ← exactNonnegativeInt (exactDictValue sizes "total_bytes")
  let outputLimit ← exactPositiveInt (exactDictValue data "max_output_bytes")
  let stdoutTruncated ← exactBool (exactDictValue truncated "stdout")
  let stderrTruncated ← exactBool (exactDictValue truncated "stderr")
  pure
    { stdoutDigest := stdoutDigest
      stderrDigest := stderrDigest
      stdoutBytes := stdoutBytes
      stderrBytes := stderrBytes
      totalBytes := totalBytes
      outputLimit := outputLimit
      stdoutTruncated := stdoutTruncated
      stderrTruncated := stderrTruncated }

/-- The counts agree with each other and with the limit. -/
@[mk_iff]
structure Counts.Consistent (counts : Counts) (active : Int) : Prop where
  digests : isSha256Digest counts.stdoutDigest = true ∧ isSha256Digest counts.stderrDigest = true
  limited : counts.outputLimit ≤ active
  total : counts.totalBytes = counts.stdoutBytes + counts.stderrBytes
  exceeds : counts.outputLimit < counts.totalBytes
  truncates : counts.stdoutTruncated = true ∨ counts.stderrTruncated = true
  stdout : counts.outputLimit < counts.stdoutBytes → counts.stdoutTruncated = true
  stderr : counts.outputLimit < counts.stderrBytes → counts.stderrTruncated = true
  stdoutSome : counts.stdoutTruncated = true → counts.stdoutBytes ≠ 0
  stderrSome : counts.stderrTruncated = true → counts.stderrBytes ≠ 0

instance (counts : Counts) (active : Int) : Decidable (counts.Consistent active) :=
  decidable_of_iff' _ (counts.consistent_iff active)

section Envelope

variable (floats : Json.FloatText)

def withCount (evidence : List (String × Json)) (count : Nat) : Json :=
  .dict (evidence ++ [("overflow_evidence_envelope",
    .dict [("schema", .str evidenceSchema), ("max_bytes", .int evidenceMaxBytes),
      ("evidence_bytes", .int count)])])

def settle (evidence : List (String × Json)) : Nat → Nat → Option Json
  | 0, _ => none
  | rounds + 1, count =>
    let actual := (Json.dumps floats (withCount evidence count)).length
    if count = actual then
      if actual ≤ evidenceMaxBytes then some (withCount evidence count) else none
    else settle evidence rounds actual

def withOutputLimitEvidenceEnvelope (evidence : List (String × Json)) : Option Json :=
  settle floats evidence 8 0

/-- `record` is the digest and the size of the executor's record. -/
def Counts.evidence (counts : Counts) (record : Option (String × Nat)) : List (String × Json) :=
  let (digest, truncated, size) : List (String × Json) × List (String × Json) ×
      List (String × Json) := match record with
    | none => ([], [], [])
    | some (digest, size) =>
      ([("record", .str digest)], [("record", .bool true)], [("record_bytes", .int size)])
  [("error_class", .str "output_limit_exceeded"), ("output_limit_exceeded", .bool true),
    ("output_digests", .dict ([("stdout", .str counts.stdoutDigest),
      ("stderr", .str counts.stderrDigest)] ++ digest)),
    ("output_truncated", .dict ([("stdout", .bool counts.stdoutTruncated),
      ("stderr", .bool counts.stderrTruncated)] ++ truncated)),
    ("output_sizes", .dict ([("stdout_bytes", .int counts.stdoutBytes),
      ("stderr_bytes", .int counts.stderrBytes), ("total_bytes", .int counts.totalBytes)] ++
        size)),
    ("max_output_bytes", .int counts.outputLimit)]

def boundedOutputLimitEvidence (output : Value) (active : Int) (record : Option (String × Nat)) :
    Option Json := do
  let counts ← readCounts output
  guard (counts.Consistent active)
  withOutputLimitEvidenceEnvelope floats (counts.evidence record)

end Envelope

def candidateOutput (response : ConnectorResponse) : Value :=
  .dict [("error_class", .str "output_limit_exceeded"), ("data", .dict response.data)]

section Envelope

variable {floats : Json.FloatText} {evidence : List (String × Json)} {base : Nat}

theorem length_dumps_nat (floats : Json.FloatText) (n : Nat) :
    (Json.dumps floats (.int n)).length = n.repr.length := by
  rw [Json.dumps, String.length_toList]
  rfl

theorem repr_length_mono {m n : Nat} (below : m ≤ n) : m.repr.length ≤ n.repr.length := by
  rw [Nat.length_repr_le_iff Nat.length_repr_pos]
  exact below.trans_lt ((Nat.length_repr_le_iff Nat.length_repr_pos).mp le_rfl)

/-- The evidence has `base` characters beside its own count. -/
def Sized (floats : Json.FloatText) (evidence : List (String × Json)) (base : Nat) : Prop :=
  ∀ count, (Json.dumps floats (withCount evidence count)).length = base + count.repr.length

/-- The text fits its envelope with a count of four digits. -/
def Fits (floats : Json.FloatText) (evidence : List (String × Json)) : Prop :=
  (Json.dumps floats (withCount evidence 1000)).length ≤ evidenceMaxBytes

theorem length_withCount (floats : Json.FloatText) (evidence : List (String × Json))
    (count : Nat) :
    (Json.dumps floats (withCount evidence count)).length =
      (evidence.map (Json.entrySize floats)).sum + 113 + count.repr.length := by
  have schema : Json.entrySize floats ("schema", .str evidenceSchema) = 46 := by
    rw [Json.entrySize, Json.dumps]
    decide +kernel
  have most : Json.entrySize floats ("max_bytes", .int evidenceMaxBytes) = 17 := by
    rw [Json.entrySize, length_dumps_nat]
    decide +kernel
  have bytes : Json.entrySize floats ("evidence_bytes", .int count) =
      16 + count.repr.length + 2 := by
    have name : (Json.quote "evidence_bytes").length = 16 := by decide +kernel
    rw [Json.entrySize, length_dumps_nat, name]
  have key : (Json.quote "overflow_evidence_envelope").length = 28 := by decide +kernel
  have envelope : Json.entrySize floats ("overflow_evidence_envelope",
      .dict [("schema", .str evidenceSchema), ("max_bytes", .int evidenceMaxBytes),
        ("evidence_bytes", .int count)]) = 112 + count.repr.length := by
    rw [Json.entrySize, key, Json.length_dumps_dict floats (List.cons_ne_nil _ _)]
    simp only [List.map_cons, List.map_nil, List.sum_cons, List.sum_nil, schema, most, bytes]
    omega
  rw [withCount, Json.length_dumps_dict floats (by simp), List.map_append, List.sum_append,
    List.map_singleton, List.sum_singleton, envelope]
  omega

theorem sized (floats : Json.FloatText) (evidence : List (String × Json)) :
    Sized floats evidence ((evidence.map (Json.entrySize floats)).sum + 113) :=
  length_withCount floats evidence

theorem settle_of_fixed (sized : Sized floats evidence base) {fixed : Nat}
    (own : base + fixed.repr.length = fixed) {steps rounds count : Nat}
    (reached : (fun n => base + n.repr.length)^[steps] count = fixed) (within : steps < rounds) :
    settle floats evidence rounds count =
      if fixed ≤ evidenceMaxBytes then some (withCount evidence fixed) else none := by
  induction steps generalizing rounds count with
  | zero =>
    obtain ⟨rounds, rfl⟩ := Nat.exists_eq_succ_of_ne_zero (by omega : rounds ≠ 0)
    obtain rfl : count = fixed := reached
    rw [settle, sized, own, if_pos rfl]
  | succ steps ih =>
    obtain ⟨rounds, rfl⟩ := Nat.exists_eq_succ_of_ne_zero (by omega : rounds ≠ 0)
    rw [Function.iterate_succ_apply] at reached
    rw [settle, sized]
    by_cases here : count = base + count.repr.length
    · rw [← here, Function.iterate_fixed here.symm] at reached
      rw [if_pos here, ← here, reached]
    · rw [if_neg here]
      exact ih reached (by omega)

theorem exists_fixed (base : Nat) : ∃ steps < 4, ∃ fixed,
    (fun n => base + n.repr.length)^[steps] 0 = fixed ∧ base + fixed.repr.length = fixed ∧
      fixed ≤ base + (base + 1).repr.length + 1 := by
  obtain ⟨digits, known⟩ : ∃ digits, (base + 1).repr.length = digits := ⟨_, rfl⟩
  have some : 0 < digits := known ▸ Nat.length_repr_pos
  have below := (Nat.length_repr_le_iff some).mp known.le
  have power : digits < 10 ^ digits := Nat.lt_pow_self (by decide)
  have more : base + digits + 1 < 10 ^ (digits + 1) := by
    rw [Nat.pow_succ]
    omega
  have first : (fun n => base + n.repr.length)^[2] 0 = base + digits := by
    rw [← known]
    rfl
  have atLeast : digits ≤ (base + digits).repr.length := by
    rw [← known]
    exact repr_length_mono (by omega)
  by_cases same : (base + digits).repr.length = digits
  · exact ⟨2, by omega, base + digits, first, by rw [same], by omega⟩
  · have grown : (base + digits).repr.length = digits + 1 := by
      have most := (Nat.length_repr_le_iff (n := base + digits) digits.succ_pos).mpr (by omega)
      omega
    have still : (base + digits + 1).repr.length = digits + 1 := by
      have most := (Nat.length_repr_le_iff (n := base + digits + 1) digits.succ_pos).mpr more
      have least : (base + digits).repr.length ≤ (base + digits + 1).repr.length :=
        repr_length_mono (by omega)
      omega
    refine ⟨3, by omega, base + digits + 1, ?_, by rw [still]; omega, by omega⟩
    rw [Function.iterate_succ_apply', first]
    omega

theorem withEnvelope_isSome_iff (floats : Json.FloatText) (evidence : List (String × Json)) :
    (withOutputLimitEvidenceEnvelope floats evidence).isSome = true ↔ Fits floats evidence := by
  have size := sized floats evidence
  have bound : evidenceMaxBytes = 2048 := rfl
  have digits : (1000 : Nat).repr.length = 4 := by decide
  obtain ⟨steps, few, fixed, reached, own, near⟩ :=
    exists_fixed ((evidence.map (Json.entrySize floats)).sum + 113)
  have small := Nat.length_repr_le_iff (n := (evidence.map (Json.entrySize floats)).sum + 113 + 1)
    (k := 4) (by decide)
  have four := Nat.length_repr_le_iff (n := fixed) (k := 4) (by decide)
  have three := Nat.length_repr_le_iff (n := fixed) (k := 3) (by decide)
  rw [withOutputLimitEvidenceEnvelope, settle_of_fixed size own reached (by omega), Fits, size,
    digits]
  split <;> simp <;> omega

/-- The record apart from an envelope it already has. -/
def unenveloped (record : List (String × Json)) : List (String × Json) :=
  record.filter (·.1 ≠ "overflow_evidence_envelope")

/-- The rounds reach a count that is the length of the record it stands in. -/
theorem envelope_self_describing (floats : Json.FloatText) (record : List (String × Json)) :
    ∃ rounds < 8, ∃ count,
      (fun n => (Json.dumps floats (withCount (unenveloped record) n)).length)^[rounds] 0 = count ∧
      (Json.dumps floats (withCount (unenveloped record) count)).length = count ∧
      withOutputLimitEvidenceEnvelope floats (unenveloped record) =
        if count ≤ evidenceMaxBytes then some (withCount (unenveloped record) count) else none := by
  have size := sized floats (unenveloped record)
  obtain ⟨steps, few, fixed, reached, own, -⟩ :=
    exists_fixed (((unenveloped record).map (Json.entrySize floats)).sum + 113)
  refine ⟨steps, by omega, fixed, ?_, (size fixed).trans own,
    settle_of_fixed size own reached (by omega)⟩
  rw [← reached]
  exact congrArg (fun f => f^[steps] 0) (funext size)

end Envelope

section Record

variable {registry : Registry} {patterns : List TextPattern}

def countsOf (limit : Nat) (result : BoundedSubprocessResult) : Counts where
  stdoutDigest := result.stdout.digest
  stderrDigest := result.stderr.digest
  stdoutBytes := result.stdout.totalBytes
  stderrBytes := result.stderr.totalBytes
  totalBytes := result.stdout.totalBytes + result.stderr.totalBytes
  outputLimit := limit
  stdoutTruncated := result.stdout.truncated
  stderrTruncated := result.stderr.truncated

/-- Redaction leaves the digests and the error class as they are. -/
structure Unredacted (registry : Registry) (patterns : List TextPattern)
    (result : BoundedSubprocessResult) : Prop where
  stdout : redactText registry patterns result.stdout.digest = result.stdout.digest
  stderr : redactText registry patterns result.stderr.digest = result.stderr.digest
  errorClass : redactText registry patterns "output_limit_exceeded" = "output_limit_exceeded"

theorem data_commandResponse {result : BoundedSubprocessResult}
    (exceeded : result.outputLimitExceeded = true)
    (unredacted : Unredacted registry patterns result) (wording : Wording)
    (request : ConnectorRequest) (limit : Int) :
    (commandResponse wording registry patterns request [] limit (some result)).data =
      [("stdout", .str (redactText registry patterns result.stdout.text)),
        ("stderr", .str (redactText registry patterns result.stderr.text)),
        ("returncode", .int result.returncode), ("max_output_bytes", .int limit),
        ("output_limit_exceeded", .bool true),
        ("output_digests", .dict [("stdout", .str result.stdout.digest),
          ("stderr", .str result.stderr.digest)]),
        ("output_truncated", .dict [("stdout", .bool result.stdout.truncated),
          ("stderr", .bool result.stderr.truncated)]),
        ("output_sizes", .dict [("stdout_bytes", .int result.stdout.totalBytes),
          ("stderr_bytes", .int result.stderr.totalBytes),
          ("total_bytes", .int (result.stdout.totalBytes + result.stderr.totalBytes))]),
        ("error_class", .str "output_limit_exceeded")] := by
  have keys : ∀ key ∈ ["stdout", "stderr", "returncode", "max_output_bytes",
      "output_limit_exceeded", "output_digests", "output_truncated", "output_sizes",
      "error_class", "stdout_bytes", "stderr_bytes", "total_bytes"], isSecretKey key = false := by
    decide +kernel
  simp only [List.forall_mem_cons] at keys
  simp only [commandResponse, exceeded, if_true, List.cons_append, List.nil_append,
    redactEntries, redactPayload, keys, Bool.false_eq_true, if_false,
    unredacted.stdout, unredacted.stderr, unredacted.errorClass]

theorem exactNonnegativeInt_nat (n : Nat) :
    exactNonnegativeInt (some (.int n)) = some (n : Int) := by
  rw [exactNonnegativeInt, if_pos (Int.natCast_nonneg n)]

theorem exactPositiveInt_nat {n : Nat} (positive : 0 < n) :
    exactPositiveInt (some (.int n)) = some (n : Int) := by
  rw [exactPositiveInt, exactNonnegativeInt_nat]
  exact if_pos (Int.natCast_pos.mpr positive)

theorem readCounts_eq {data digests sizes truncated : Entries} {counts : Counts}
    (errorClass : data.lookup "error_class" = some (.str "output_limit_exceeded"))
    (exceeded : data.lookup "output_limit_exceeded" = some (.bool true))
    (digestsOf : data.lookup "output_digests" = some (.dict digests))
    (sizesOf : data.lookup "output_sizes" = some (.dict sizes))
    (truncatedOf : data.lookup "output_truncated" = some (.dict truncated))
    (stdoutDigest : digests.lookup "stdout" = some (.str counts.stdoutDigest))
    (stderrDigest : digests.lookup "stderr" = some (.str counts.stderrDigest))
    (stdoutBytes : exactNonnegativeInt (sizes.lookup "stdout_bytes") = some counts.stdoutBytes)
    (stderrBytes : exactNonnegativeInt (sizes.lookup "stderr_bytes") = some counts.stderrBytes)
    (totalBytes : exactNonnegativeInt (sizes.lookup "total_bytes") = some counts.totalBytes)
    (outputLimit : exactPositiveInt (data.lookup "max_output_bytes") = some counts.outputLimit)
    (stdoutTruncated : truncated.lookup "stdout" = some (.bool counts.stdoutTruncated))
    (stderrTruncated : truncated.lookup "stderr" = some (.bool counts.stderrTruncated)) :
    readCounts (.dict [("error_class", .str "output_limit_exceeded"), ("data", .dict data)]) =
      some counts := by
  have first : List.lookup "error_class" [("error_class", Value.str "output_limit_exceeded"),
    ("data", .dict data)] = some (.str "output_limit_exceeded") := rfl
  have second : List.lookup "data" [("error_class", Value.str "output_limit_exceeded"),
    ("data", .dict data)] = some (.dict data) := rfl
  simp only [readCounts, exactDictValue, first, second, exactStr, exactDict, exactBool, guard,
    if_true, errorClass, exceeded, digestsOf, sizesOf, truncatedOf, stdoutDigest, stderrDigest,
    stdoutBytes, stderrBytes, totalBytes, outputLimit, stdoutTruncated, stderrTruncated,
    Option.bind_eq_bind, Option.bind_some, Option.pure_def]

theorem readCounts_candidateOutput {limit : Nat} (positive : 0 < limit)
    {result : BoundedSubprocessResult} (exceeded : result.outputLimitExceeded = true)
    (unredacted : Unredacted registry patterns result) (wording : Wording)
    (request : ConnectorRequest) :
    readCounts (candidateOutput (commandResponse wording registry patterns request [] limit
      (some result))) = some (countsOf limit result) := by
  rw [candidateOutput, data_commandResponse exceeded unredacted]
  refine readCounts_eq rfl rfl rfl rfl rfl rfl rfl ?_ ?_ ?_ ?_ rfl rfl
  · exact exactNonnegativeInt_nat result.stdout.totalBytes
  · exact exactNonnegativeInt_nat result.stderr.totalBytes
  · exact exactNonnegativeInt_nat (result.stdout.totalBytes + result.stderr.totalBytes)
  · exact exactPositiveInt_nat positive

end Record

section Captures

variable {limit : Nat} {output : Pipe → List UInt8} {s : State} (encoding : Encoding)

theorem totalBytes_result (stream : StreamAccumulator) :
    (stream.result encoding).totalBytes = stream.totalBytes := rfl

theorem digest_result (stream : StreamAccumulator) :
    (stream.result encoding).digest.toList =
      "sha256:".toList ++ (encoding.hexdigest stream.hashed).toList :=
  String.toList_append

theorem isSha256Digest_result (stream : StreamAccumulator) :
    isSha256Digest (stream.result encoding).digest = true := by
  have length := encoding.length_hexdigest stream.hashed
  have hex := encoding.hex_hexdigest stream.hashed
  have rest : ((stream.result encoding).digest.toList).drop 7 =
      (encoding.hexdigest stream.hashed).toList := by
    rw [digest_result]
    exact List.drop_left' rfl
  rw [isSha256Digest, rest, digest_result, length]
  simpa using hex

theorem length_quote {text : String} (plain : ∀ c ∈ text.toList, Json.escape c = [c]) :
    (Json.quote text).length = text.toList.length + 2 := by
  have same : text.toList.flatMap Json.escape = text.toList := by
    rw [List.flatMap_congr plain, List.flatMap_singleton']
  rw [Json.quote, same]
  simp

theorem length_quote_digest (stream : StreamAccumulator) :
    (Json.quote (stream.result encoding).digest).length = 73 := by
  have plain : ("sha256:".toList ++ hexDigits).all (fun c => Json.escape c == [c]) = true := by
    decide +kernel
  have length := encoding.length_hexdigest stream.hashed
  rw [length_quote, digest_result, List.length_append, length]
  · rfl
  · intro c inside
    rw [digest_result] at inside
    refine eq_of_beq (List.all_eq_true.mp plain c ?_)
    refine List.mem_append.mpr ((List.mem_append.mp inside).imp_right ?_)
    exact encoding.hex_hexdigest stream.hashed c

theorem consistent_countsOf (accounts : Accounts limit output s)
    (exceeded : s.capture.exceeded = true) {active : Int} (limited : limit ≤ active)
    (returncode : Int) :
    (countsOf limit (result encoding returncode s.capture)).Consistent active := by
  have above := accounts.reported.mp exceeded
  have spent := accounts.spent exceeded
  rw [Capture.totalDrained] at above
  rw [Capture.retainedTotal] at spent
  constructor
  · exact ⟨isSha256Digest_result encoding _, isSha256Digest_result encoding _⟩
  · exact limited
  · rfl
  all_goals simp only [countsOf, result, StreamAccumulator.result, decide_eq_true_eq]
  all_goals omega

theorem accepted_iff (floats : Json.FloatText) (positive : 0 < limit)
    (accounts : Accounts limit output s) (exceeded : s.capture.exceeded = true)
    {registry : Registry} {patterns : List TextPattern} {returncode active : Int}
    (unredacted : Unredacted registry patterns (result encoding returncode s.capture))
    (limited : limit ≤ active) (request : ConnectorRequest) (record : Option (String × Nat)) :
    (boundedOutputLimitEvidence floats (candidateOutput (commandResponse LocalShell.wording
      registry patterns request [] limit (some (result encoding returncode s.capture))))
        active record).isSome = true ↔
      Fits floats ((countsOf limit (result encoding returncode s.capture)).evidence record) := by
  have reports : (result encoding returncode s.capture).outputLimitExceeded = true := exceeded
  have read := readCounts_candidateOutput positive reports unredacted LocalShell.wording request
  have consistent := consistent_countsOf encoding accounts exceeded limited returncode
  rw [← withEnvelope_isSome_iff, boundedOutputLimitEvidence, read]
  simp only [Option.bind_eq_bind, Option.bind_some, guard, if_pos consistent, Option.pure_def]

theorem length_dumps_bool (floats : Json.FloatText) (b : Bool) :
    (Json.dumps floats (.bool b)).length ≤ 5 := by
  cases b <;> simp [Json.dumps]

theorem length_evidence (floats : Json.FloatText) (limit : Nat) (capture : Capture)
    (returncode : Int) (count : Nat) :
    (Json.dumps floats (withCount
      ((countsOf limit (result encoding returncode capture)).evidence none) count)).length =
      (capture.streams .stdout).totalBytes.repr.length +
      (capture.streams .stderr).totalBytes.repr.length + capture.totalDrained.repr.length +
      limit.repr.length + count.repr.length +
      (Json.dumps floats (.bool ((capture.streams .stdout).result encoding).truncated)).length +
      (Json.dumps floats (.bool ((capture.streams .stderr).result encoding).truncated)).length +
      490 := by
  have keys : (Json.quote "error_class").length = 13 ∧
      (Json.quote "output_limit_exceeded").length = 23 ∧
      (Json.quote "output_digests").length = 16 ∧ (Json.quote "output_truncated").length = 18 ∧
      (Json.quote "output_sizes").length = 14 ∧ (Json.quote "max_output_bytes").length = 18 ∧
      (Json.quote "stdout").length = 8 ∧ (Json.quote "stderr").length = 8 ∧
      (Json.quote "stdout_bytes").length = 14 ∧ (Json.quote "stderr_bytes").length = 14 ∧
      (Json.quote "total_bytes").length = 13 := by decide +kernel
  have texts : ∀ text, (Json.dumps floats (.str text)).length = (Json.quote text).length :=
    fun _ => by rw [Json.dumps]
  have true' : (Json.dumps floats (.bool true)).length = 4 := by simp [Json.dumps]
  have total := length_dumps_nat floats capture.totalDrained
  rw [Capture.totalDrained, Int.natCast_add] at total
  rw [length_withCount, Capture.totalDrained]
  simp only [Counts.evidence, countsOf, result, List.append_nil, List.map_cons, List.map_nil,
    List.sum_cons, List.sum_nil, Json.entrySize]
  rw [Json.length_dumps_dict floats (List.cons_ne_nil _ _),
    Json.length_dumps_dict floats (List.cons_ne_nil _ _),
    Json.length_dumps_dict floats (List.cons_ne_nil _ _)]
  simp only [List.map_cons, List.map_nil, List.sum_cons, List.sum_nil, Json.entrySize, keys, texts,
    true', length_quote_digest, length_dumps_nat, totalBytes_result, total]
  omega

theorem fits_of_totalDrained_lt (floats : Json.FloatText) (accounts : Accounts limit output s)
    (exceeded : s.capture.exceeded = true) (small : s.capture.totalDrained < 10 ^ 250)
    (returncode : Int) :
    Fits floats ((countsOf limit (result encoding returncode s.capture)).evidence none) := by
  have above := accounts.reported.mp exceeded
  have digits : ∀ n, n ≤ s.capture.totalDrained → n.repr.length ≤ 250 := fun n below =>
    (Nat.length_repr_le_iff (by decide)).mpr (below.trans_lt small)
  have stdout := digits (s.capture.streams .stdout).totalBytes (Nat.le_add_right _ _)
  have stderr := digits (s.capture.streams .stderr).totalBytes (Nat.le_add_left _ _)
  have total := digits s.capture.totalDrained le_rfl
  have limits := digits limit above.le
  have count : (1000 : Nat).repr.length = 4 := by decide
  have bound : evidenceMaxBytes = 2048 := rfl
  have flag := length_dumps_bool floats ((s.capture.streams .stdout).result encoding).truncated
  have flag' := length_dumps_bool floats ((s.capture.streams .stderr).result encoding).truncated
  rw [Fits, length_evidence]
  omega

/-- A capture accounts for every read, and the evidence of an excess is accepted. -/
theorem capture_accounts (floats : Json.FloatText) (limit : Nat) (positive : 0 < limit)
    (output : Pipe → List UInt8) (reads : List (Pipe × Read)) :
    let s := run limit output reads
    s.capture.retainedTotal ≤ limit ∧
    (∀ pipe, (s.capture.streams pipe).retained <+: output pipe) ∧
    (∀ pipe, (s.capture.streams pipe).totalBytes + (s.left pipe).length =
      (output pipe).length) ∧
    (s.capture.exceeded = true ↔ limit < s.capture.totalDrained) ∧
    (s.capture.exceeded = false → ∀ pipe,
      (s.capture.streams pipe).retained ++ s.left pipe = output pipe) ∧
    (∀ before read, before ++ [read] <+: reads →
      (run limit output before).capture.exceeded = false →
      (run limit output (before ++ [read])).capture.exceeded = true →
        (run limit output (before ++ [read])).capture.totalDrained ≤ limit + 1) ∧
    (s.capture.exceeded = true →
      ∀ (registry : Registry) (patterns : List TextPattern) (request : ConnectorRequest)
        (returncode active : Int) (record : Option (String × Nat)), limit ≤ active →
      Unredacted registry patterns (result encoding returncode s.capture) →
      ((boundedOutputLimitEvidence floats (candidateOutput (commandResponse LocalShell.wording
        registry patterns request [] limit (some (result encoding returncode s.capture)))) active
          record).isSome = true ↔
        Fits floats ((countsOf limit (result encoding returncode s.capture)).evidence record)) ∧
      (s.capture.totalDrained < 10 ^ 250 →
        Fits floats ((countsOf limit (result encoding returncode s.capture)).evidence none))) := by
  have accounts := accounts_run limit output reads
  refine ⟨accounts.retainedTotal_le, fun pipe => ?_, fun pipe => ?_, accounts.reported,
    fun within pipe => ?_, fun before read _ within detected => ?_, ?_⟩
  · have whole := accounts.whole pipe
    exact (accounts.front pipe).trans ⟨_, whole⟩
  · rw [accounts.counted, ← List.length_append, accounts.whole]
  · rw [accounts.full within, accounts.whole]
  · rw [run_concat] at detected ⊢
    exact totalDrained_of_detected (accounts_run limit output before) read within detected
  · intro exceeded registry patterns request returncode active record limited unredacted
    exact ⟨
      accepted_iff encoding floats positive accounts exceeded unredacted limited request record,
      fun small => fits_of_totalDrained_lt encoding floats accounts exceeded small returncode⟩

def bytewise (limit : Nat) : Pipe → List UInt8
  | .stdout => List.replicate (limit + 1) 0
  | .stderr => []

theorem readSize_pos (limit : Nat) (capture : Capture) : 0 < capture.readSize limit := by
  rw [Capture.readSize, readChunkBytes]
  split_ifs <;> omega

theorem left_bytewise {limit k : Nat} (within : k ≤ limit + 1) :
    (run limit (bytewise limit) (List.replicate k (.stdout, .bytes 0))).left .stdout =
      List.replicate (limit + 1 - k) 0 := by
  induction k with
  | zero => rfl
  | succ k ih =>
    have size := readSize_pos limit
      (run limit (bytewise limit) (List.replicate k (.stdout, .bytes 0))).capture
    have left := ih (by omega)
    obtain ⟨rest, more⟩ : ∃ rest, limit + 1 - k = rest + 1 := ⟨limit - k, by omega⟩
    rw [List.replicate_succ', run_concat, step, left, more, Nat.min_eq_left size]
    have rest' : limit + 1 - (k + 1) = rest := by omega
    simp [List.replicate_succ, rest']

theorem totalBytes_bytewise (limit : Nat) :
    ((run limit (bytewise limit) (List.replicate (limit + 1) (.stdout, .bytes 0))).capture.streams
      .stdout).totalBytes = limit + 1 := by
  have accounts := accounts_run limit (bytewise limit)
    (List.replicate (limit + 1) (.stdout, .bytes 0))
  have stdout := congrArg List.length (accounts.whole .stdout)
  rw [List.length_append, left_bytewise le_rfl, ← accounts.counted] at stdout
  simpa [bytewise] using stdout

theorem exceeded_bytewise (limit : Nat) :
    (run limit (bytewise limit)
      (List.replicate (limit + 1) (.stdout, .bytes 0))).capture.exceeded = true := by
  have stdout := totalBytes_bytewise limit
  rw [(accounts_run limit (bytewise limit) _).reported, Capture.totalDrained]
  omega

theorem exists_repr_length (k : Nat) : ∃ n : Nat, k < n.repr.length := by
  refine ⟨10 ^ (k + 1), Nat.lt_of_succ_lt ?_⟩
  rw [← Nat.not_le, Nat.length_repr_le_iff k.succ_pos]
  exact Nat.lt_irrefl _

theorem not_fits_bytewise (floats : Json.FloatText) {limit : Nat}
    (large : 600 < limit.repr.length) (returncode : Int) :
    ¬ Fits floats ((countsOf limit (result encoding returncode (run limit (bytewise limit)
      (List.replicate (limit + 1) (.stdout, .bytes 0))).capture)).evidence none) := by
  have stdout := totalBytes_bytewise limit
  have drained : limit + 1 ≤ (run limit (bytewise limit)
      (List.replicate (limit + 1) (.stdout, .bytes 0))).capture.totalDrained := by
    rw [Capture.totalDrained]
    omega
  have digits := repr_length_mono (Nat.le_succ limit)
  have total := repr_length_mono drained
  have bound : evidenceMaxBytes = 2048 := rfl
  rw [Fits, length_evidence, stdout]
  rw [Nat.succ_eq_add_one] at digits
  omega

end Captures

def sampleEncoding : Encoding where
  decode _ := ""
  hexdigest _ := String.ofList (List.replicate 64 'a')
  length_hexdigest _ := by simp
  hex_hexdigest _ c inside := by
    rw [String.toList_ofList, List.mem_replicate] at inside
    rw [inside.2]
    decide

def twoBytes : Pipe → List UInt8
  | .stdout => [97, 98]
  | .stderr => []

def sampleReads : List (Pipe × Read) := [(.stderr, .bytes 0), (.stdout, .bytes 9)]

def checked (registry : Registry) (limit : Nat) (s : State) : Option Json :=
  boundedOutputLimitEvidence .coarse (candidateOutput (commandResponse LocalShell.wording registry
    [] sampleRequest [] limit (some (result sampleEncoding 0 s.capture)))) limit none

theorem twoBytes_accepted :
    (run 1 twoBytes sampleReads).capture.exceeded = true ∧
    (run 1 twoBytes sampleReads).capture.totalDrained ≤ 1 + 1 ∧
    (checked Registry.empty 1 (run 1 twoBytes sampleReads)).isSome = true := by
  have exceeded : (run 1 twoBytes sampleReads).capture.exceeded = true := by decide
  have accounts := capture_accounts sampleEncoding .coarse 1 (by decide) twoBytes sampleReads
  obtain ⟨-, -, -, -, -, detected, evidence⟩ := accounts
  obtain ⟨accepted, fits⟩ := evidence exceeded Registry.empty [] sampleRequest 0 1 none (by decide)
    ⟨rfl, rfl, rfl⟩
  refine ⟨exceeded, ?_, accepted.mpr (fits (by decide))⟩
  exact detected [(.stderr, .bytes 0)] (.stdout, .bytes 9) (List.prefix_refl _) (by decide)
    (by decide)

/-- A secret in the error class is redacted; huge counts do not fit the envelope. -/
theorem excess_not_accepted :
    (∃ registry : Registry,
      redactText registry [] ((run 1 twoBytes sampleReads).capture.streams .stdout |>.result
        sampleEncoding).digest = ((run 1 twoBytes sampleReads).capture.streams .stdout |>.result
          sampleEncoding).digest ∧
      redactText registry [] ((run 1 twoBytes sampleReads).capture.streams .stderr |>.result
        sampleEncoding).digest = ((run 1 twoBytes sampleReads).capture.streams .stderr |>.result
          sampleEncoding).digest ∧
      (run 1 twoBytes sampleReads).capture.exceeded = true ∧
      (checked registry 1 (run 1 twoBytes sampleReads)).isSome = false) ∧
    ∃ limit output reads, (run limit output reads).capture.exceeded = true ∧
      (checked Registry.empty limit (run limit output reads)).isSome = false := by
  constructor
  · refine ⟨registerSecretValue .empty "exceeded", ?_, ?_, ?_, ?_⟩ <;> decide +kernel
  · obtain ⟨limit, large⟩ := exists_repr_length 600
    have positive : 0 < limit := Nat.pos_of_ne_zero fun zero => by
      subst zero
      revert large
      decide
    have exceeded := exceeded_bytewise limit
    refine ⟨limit, bytewise limit, _, exceeded, ?_⟩
    rw [← Bool.not_eq_true, checked, accepted_iff sampleEncoding .coarse positive
      (accounts_run limit (bytewise limit) _) exceeded ⟨rfl, rfl, rfl⟩ le_rfl]
    exact not_fits_bytewise sampleEncoding .coarse large 0

end RExecOp.OutputLimitEvidence
