import RExecOp.Commands
import RExecOp.Lib.Json

/-! HTTP actions: the shape of an action (`connectors/action_shape.py`) and the execution spec
that binds its digest (`execution/typed_spec.py`). -/

namespace RExecOp.ActionShape

open Commands (Raised ensure orRaise ok_of_bind eq_some_of_orRaise typedExecutionSchemaVersion
  validateTypedExecutionSchemaVersion)

variable {action : String}

abbrev Entries := List (String × Json)

variable {spec config contract : Entries}

/-- What the language and its library do with values. -/
structure Language where
  /-- `str` of a value that is not a text -/
  text : Json → String
  upper : String → String
  int : Json → Option Int
  floats : Json.FloatText
  /-- the digest of an encoded text, in hexadecimal digits -/
  sha256 : List Char → String
  /-- `destination_binding` of `connectors/http_support.py` -/
  destinationBinding : String → Except Raised Json

/-- A mapping as it is parsed: each key once, at every depth. -/
structure Mapping where
  entries : Entries
  proper : (Json.dict entries).Proper

structure Pagination where
  itemsPath : String
  nextPath : String
  maxPages : Int

structure Shape where
  method : String
  path : String
  query : Entries
  body : Json
  unwrap : String
  pagination : Option Pagination
  mutating : Bool
  maxResponseBytes : Int

def paginationEntries : Option Pagination → Entries
  | none => []
  | some pagination =>
    [("items_path", .str pagination.itemsPath), ("next_path", .str pagination.nextPath),
      ("max_pages", .int pagination.maxPages)]

def Shape.asJson (shape : Shape) : Json :=
  .dict
    [("method", .str shape.method), ("path", .str shape.path), ("query", .dict shape.query),
      ("body", shape.body), ("unwrap", .str shape.unwrap),
      ("pagination", .dict (paginationEntries shape.pagination)),
      ("mutating", .bool shape.mutating), ("max_response_bytes", .int shape.maxResponseBytes)]

section

variable (language : Language)

def str : Json → String
  | .str s => s
  | value => language.text value

def setting (entries : Entries) (key default : String) : String :=
  str language (Json.orElse (Json.get entries key) (.str default))

def int (value : Json) : Except Raised Int := orRaise (language.int value) (.other "int")

def queryOf (spec : Entries) : Entries := ((Json.get spec "query").asDict).getD []

def paginationOf (spec : Entries) : Except Raised (Option Pagination) :=
  match (Json.get spec "pagination").asDict with
  | none => .ok none
  | some pagination => do
    let maxPages ← int language (Json.orElse (Json.get pagination "max_pages") (.int 10))
    pure (some
      { itemsPath := setting language pagination "items_path" ""
        nextPath := setting language pagination "next_path" ""
        maxPages := maxPages })

def canonicalHttpActionShape (spec config : Entries) : Except Raised Shape := do
  let pagination ← paginationOf language spec
  let maxResponseBytes ← int language
    (Json.orElse (Json.get spec "max_response_bytes")
      (Json.orElse (Json.get config "max_response_bytes") (.int 65536)))
  pure
    { method := language.upper (setting language spec "method" "GET")
      path := setting language spec "path" "/"
      query := queryOf spec
      body := Json.get spec "body"
      unwrap := setting language spec "unwrap" ""
      pagination := pagination
      mutating := (Json.get spec "mutating").truthy
      maxResponseBytes := maxResponseBytes }

def httpActionShapeDigest (shape : Shape) : String :=
  "sha256:" ++ language.sha256 (Json.dumps language.floats shape.asJson)

def declaredSpec (contract : Entries) (action : String) : Option Entries := do
  let shapes ← (Json.get contract "action_shapes").asDict
  (Json.get shapes action).asDict

def configuredSpec (config : Entries) (action : String) : Option Entries := do
  let actions ← (Json.get config "actions").asDict
  (Json.get actions action).asDict

def validateHttpActionShape (connector action : String) (contract config : Entries) :
    Except Raised (Option String) :=
  match (Json.get contract "action_shapes").asDict with
  | none => .ok none
  | some shapes => do
    let expectedSpec ← orRaise ((Json.get shapes action).asDict)
      (.validation ("http action shape not declared: " ++ connector ++ "." ++ action))
    let actualSpec ← orRaise (configuredSpec config action)
      (.validation ("http action not configured: " ++ connector ++ "." ++ action))
    let expected ← canonicalHttpActionShape language expectedSpec expectedSpec
    let actual ← canonicalHttpActionShape language actualSpec config
    ensure (Json.eq actual.asJson expected.asJson = true)
      (.validation ("http action shape mismatch: " ++ connector ++ "." ++ action))
    pure (some (httpActionShapeDigest language expected))

structure HttpActionExecutionSpec where
  schema : String
  schemaVersion : String
  connector : String
  action : String
  shape : Shape
  shapeDigest : String
  mutating : Bool
  maxResponseBytes : Int
  destinationBinding : Option Json

/-- That of the `base_url` of a configuration, or the declared one. -/
def configuredDestination (config : Entries) : Except Raised (Option Json) :=
  let baseUrl := strip (setting language config "base_url" "")
  if baseUrl ≠ "" then do
    let binding ← language.destinationBinding baseUrl
    pure (some binding)
  else .ok ((Json.get config "destination_binding").asDict.map .dict)

def compileHttpActionExecutionSpec (connector action : String) (contract config : Entries) :
    Except Raised HttpActionExecutionSpec := do
  let shapeDigest ← validateHttpActionShape language connector action contract config
  let spec ← orRaise (configuredSpec config action)
    (.validation ("http action not configured: " ++ connector ++ "." ++ action))
  let shape ← canonicalHttpActionShape language spec config
  let destinationBinding ← configuredDestination language config
  let schema := "rexecop.http_action_execution_spec.v0.1"
  validateTypedExecutionSchemaVersion schema typedExecutionSchemaVersion
  pure
    { schema := schema
      schemaVersion := typedExecutionSchemaVersion
      connector := connector
      action := action
      shape := shape
      shapeDigest := shapeDigest.getD (httpActionShapeDigest language shape)
      mutating := shape.mutating
      maxResponseBytes := if shape.maxResponseBytes = 0 then 65536 else shape.maxResponseBytes
      destinationBinding := destinationBinding }

end

section Shapes

theorem proper_get {entries : Entries} (proper : (Json.dict entries).Proper) (key : String) :
    (Json.get entries key).Proper := by
  rw [Json.Proper, Json.properEntries_iff] at proper
  rw [Json.get]
  cases found : entries.lookup key with
  | none => exact trivial
  | some x => exact proper.2 _ (Assoc.mem_of_lookup found)

theorem proper_asDict {value : Json} {entries : Entries} (proper : value.Proper)
    (mapping : value.asDict = some entries) : (Json.dict entries).Proper := by
  cases value <;> cases mapping
  exact proper

theorem proper_queryOf (proper : (Json.dict spec).Proper) : (Json.dict (queryOf spec)).Proper := by
  rw [queryOf]
  cases mapping : (Json.get spec "query").asDict with
  | none => exact ⟨List.nodup_nil, trivial⟩
  | some entries => exact proper_asDict (proper_get proper "query") mapping

variable {language : Language}

theorem canonicalHttpActionShape_parts {shape : Shape}
    (canonical : canonicalHttpActionShape language spec config = .ok shape) :
    shape.query = queryOf spec ∧ shape.body = Json.get spec "body" := by
  obtain ⟨pagination, -, rest⟩ := ok_of_bind canonical
  obtain ⟨maxResponseBytes, -, rest⟩ := ok_of_bind rest
  cases rest
  exact ⟨rfl, rfl⟩

theorem proper_paginationEntries (pagination : Option Pagination) :
    (Json.dict (paginationEntries pagination)).Proper := by
  cases pagination <;> simp [paginationEntries, Json.Proper, Json.ProperEntries]

theorem proper_asJson {shape : Shape}
    (canonical : canonicalHttpActionShape language spec config = .ok shape)
    (proper : (Json.dict spec).Proper) : shape.asJson.Proper := by
  obtain ⟨query, body⟩ := canonicalHttpActionShape_parts canonical
  have entries : (Json.dict shape.query).Proper ∧ shape.body.Proper ∧
      (Json.dict (paginationEntries shape.pagination)).Proper := by
    rw [query, body]
    exact ⟨proper_queryOf proper, proper_get proper "body", proper_paginationEntries _⟩
  rw [Shape.asJson, Json.Proper, Json.properEntries_iff]
  refine ⟨by simp, ?_⟩
  simpa [Json.Proper] using entries

theorem alike_paginationEntries (first second : Option Pagination) :
    Json.alikeEntries (paginationEntries first) (paginationEntries second) = true := by
  cases first <;> cases second <;>
    simp [paginationEntries, Json.alikeEntries, Json.alike, Json.kind, List.lookup_cons]

theorem alike_asJson (first second : Shape) :
    Json.alike first.asJson second.asJson = true ↔
      Json.alike (.dict first.query) (.dict second.query) = true ∧
        Json.alike first.body second.body = true := by
  simp [Shape.asJson, Json.alike, Json.alikeEntries, alike_paginationEntries, List.lookup_cons,
    Json.kind]

end Shapes

section Digest

variable {language : Language}

/-- Contract and configuration hold values of the same types: no `true` for a `1`. -/
def SameTypes (contract config : Entries) (action : String) : Prop :=
  ∀ declared configured, declaredSpec contract action = some declared →
    configuredSpec config action = some configured →
      Json.alike (.dict (queryOf configured)) (.dict (queryOf declared)) = true ∧
        Json.alike (Json.get configured "body") (Json.get declared "body") = true

theorem proper_configuredSpec (proper : (Json.dict config).Proper)
    (found : configuredSpec config action = some spec) : (Json.dict spec).Proper := by
  obtain ⟨actions, mapping, found⟩ := Option.bind_eq_some_iff.mp found
  exact proper_asDict (proper_get (proper_asDict (proper_get proper _) mapping) _) found

theorem proper_declaredSpec (proper : (Json.dict contract).Proper)
    (found : declaredSpec contract action = some spec) : (Json.dict spec).Proper := by
  obtain ⟨shapes, mapping, found⟩ := Option.bind_eq_some_iff.mp found
  exact proper_asDict (proper_get (proper_asDict (proper_get proper _) mapping) _) found

theorem of_ensure {condition : Prop} [Decidable condition] {error : Raised}
    (raised : ensure condition error = .ok ()) : condition := by
  by_cases holds : condition
  · exact holds
  · rw [ensure, if_neg holds] at raised
    cases raised

theorem validateHttpActionShape_ok {connector action : String} {digest : Option String}
    (valid : validateHttpActionShape language connector action contract config = .ok digest) :
    (declaredSpec contract action = none ∧ digest = none) ∨
    ∃ declared configured expected actual, declaredSpec contract action = some declared ∧
      configuredSpec config action = some configured ∧
      canonicalHttpActionShape language declared declared = .ok expected ∧
      canonicalHttpActionShape language configured config = .ok actual ∧
      Json.eq actual.asJson expected.asJson = true ∧
      digest = some (httpActionShapeDigest language expected) := by
  rw [validateHttpActionShape] at valid
  cases mapping : (Json.get contract "action_shapes").asDict with
  | none =>
    rw [mapping] at valid
    cases valid
    exact .inl ⟨by rw [declaredSpec, mapping]; rfl, rfl⟩
  | some shapes =>
    rw [mapping] at valid
    obtain ⟨declared, found, rest⟩ := ok_of_bind valid
    obtain ⟨configured, known, rest⟩ := ok_of_bind rest
    obtain ⟨expected, canonical, rest⟩ := ok_of_bind rest
    obtain ⟨actual, canonical', rest⟩ := ok_of_bind rest
    obtain ⟨_, same, rest⟩ := ok_of_bind rest
    cases rest
    refine .inr ⟨declared, configured, expected, actual, ?_, eq_some_of_orRaise known, canonical,
      canonical', of_ensure same, rfl⟩
    rw [declaredSpec, mapping]
    exact eq_some_of_orRaise found

theorem compileHttpActionExecutionSpec_ok {connector action : String}
    {payload : HttpActionExecutionSpec}
    (compiled : compileHttpActionExecutionSpec language connector action contract config =
      .ok payload) :
    ∃ digest configured,
      validateHttpActionShape language connector action contract config = .ok digest ∧
      configuredSpec config action = some configured ∧
      canonicalHttpActionShape language configured config = .ok payload.shape ∧
      payload.shapeDigest = digest.getD (httpActionShapeDigest language payload.shape) := by
  obtain ⟨digest, valid, rest⟩ := ok_of_bind compiled
  obtain ⟨configured, found, rest⟩ := ok_of_bind rest
  obtain ⟨shape, canonical, rest⟩ := ok_of_bind rest
  obtain ⟨destination, -, rest⟩ := ok_of_bind rest
  obtain ⟨_, -, rest⟩ := ok_of_bind rest
  cases rest
  exact ⟨digest, configured, valid, eq_some_of_orRaise found, canonical, rfl⟩

/-- The texts of the two shapes have one digest only if they are the same. -/
def Tells (language : Language) (expected actual : Shape) : Prop :=
  httpActionShapeDigest language expected = httpActionShapeDigest language actual →
    Json.dumps language.floats expected.asJson = Json.dumps language.floats actual.asJson

theorem httpActionShapeDigest_eq_iff {actual expected : Shape}
    (tells : Tells language expected actual)
    (same : Json.eq actual.asJson expected.asJson = true) (proper : actual.asJson.Proper)
    (proper' : expected.asJson.Proper) :
    httpActionShapeDigest language expected = httpActionShapeDigest language actual ↔
      Json.alike actual.asJson expected.asJson = true := by
  rw [← Json.dumps_eq_iff language.floats same proper proper']
  constructor
  · intro digest
    exact (tells digest).symm
  · intro text
    rw [httpActionShapeDigest, httpActionShapeDigest, text]

/-- A compiled spec names the digest of the shape it holds exactly if contract and configuration
agree in the types of their values and not only in their equality. -/
theorem shapeDigest_binds_iff (connector action : String) (contract config : Mapping)
    (payload : HttpActionExecutionSpec)
    (tells : ∀ declared expected, declaredSpec contract.entries action = some declared →
      canonicalHttpActionShape language declared declared = .ok expected →
        Tells language expected payload.shape)
    (compiled : compileHttpActionExecutionSpec language connector action contract.entries
      config.entries = .ok payload) :
    payload.shapeDigest = httpActionShapeDigest language payload.shape ↔
      SameTypes contract.entries config.entries action := by
  obtain ⟨digest, configured, valid, known, canonical, named⟩ :=
    compileHttpActionExecutionSpec_ok compiled
  rcases validateHttpActionShape_ok valid with
    ⟨undeclared, rfl⟩ | ⟨declared, configured', expected, actual, found, known', canonical',
      canonical'', same, rfl⟩
  · refine iff_of_true named fun declared _ found => ?_
    rw [undeclared] at found
    cases found
  · obtain rfl : configured' = configured := Option.some.inj (known'.symm.trans known)
    obtain rfl : actual = payload.shape := Except.ok.inj (canonical''.symm.trans canonical)
    have parts := canonicalHttpActionShape_parts canonical
    have parts' := canonicalHttpActionShape_parts canonical'
    rw [named, Option.getD_some, httpActionShapeDigest_eq_iff
      (tells declared expected found canonical') same
      (proper_asJson canonical (proper_configuredSpec config.proper known))
      (proper_asJson canonical' (proper_declaredSpec contract.proper found)), alike_asJson,
      parts.1, parts.2, parts'.1, parts'.2]
    constructor
    · intro both _ _ found' known''
      obtain rfl := Option.some.inj (found'.symm.trans found)
      obtain rfl := Option.some.inj (known''.symm.trans known)
      exact both
    · intro all
      exact all declared configured' found known

def sampleLanguage : Language where
  text _ := "None"
  upper text := text
  int
    | .int n => some n
    | _ => none
  floats := .coarse
  sha256 := String.ofList
  destinationBinding _ := .error (.validation "destination")

def listing (page : Json) : Entries :=
  [("list", .dict [("path", .str "/items"), ("query", .dict [("page", page)])])]

theorem proper_listing {page : Json} (proper : page.Proper) (key : String) :
    (Json.dict [(key, .dict (listing page))]).Proper := by
  simp [listing, Json.Proper, Json.ProperEntries, proper]

def declares (page : Json) (proper : page.Proper) : Mapping :=
  ⟨[("action_shapes", .dict (listing page))], proper_listing proper _⟩

def configures (page : Json) (proper : page.Proper) : Mapping :=
  ⟨[("actions", .dict (listing page))], proper_listing proper _⟩

def sampleShape (page : Json) : Shape where
  method := "GET"
  path := "/items"
  query := [("page", page)]
  body := .null
  unwrap := ""
  pagination := none
  mutating := false
  maxResponseBytes := 65536

def samplePayload (page declared : Json) : HttpActionExecutionSpec where
  schema := "rexecop.http_action_execution_spec.v0.1"
  schemaVersion := "v0.1"
  connector := "api"
  action := "list"
  shape := sampleShape page
  shapeDigest := httpActionShapeDigest sampleLanguage (sampleShape declared)
  mutating := false
  maxResponseBytes := 65536
  destinationBinding := none

theorem sampleLanguage_tells (expected actual : Shape) :
    Tells sampleLanguage expected actual := by
  intro digest
  rw [httpActionShapeDigest, httpActionShapeDigest, String.append_right_inj] at digest
  exact String.ofList_inj.mp digest

theorem equal_pages_bound :
    compileHttpActionExecutionSpec sampleLanguage "api" "list"
      (declares (.int 1) trivial).entries (configures (.int 1) trivial).entries =
        .ok (samplePayload (.int 1) (.int 1)) ∧
    (samplePayload (.int 1) (.int 1)).shapeDigest =
      httpActionShapeDigest sampleLanguage (samplePayload (.int 1) (.int 1)).shape := by
  have compiled : compileHttpActionExecutionSpec sampleLanguage "api" "list"
      (declares (.int 1) trivial).entries (configures (.int 1) trivial).entries =
        .ok (samplePayload (.int 1) (.int 1)) := rfl
  have types : SameTypes (declares (.int 1) trivial).entries
      (configures (.int 1) trivial).entries "list" := by
    intro declared configured found known
    cases found
    cases known
    decide
  exact ⟨compiled, (shapeDigest_binds_iff "api" "list" (declares (.int 1) trivial)
    (configures (.int 1) trivial) _ (fun _ expected _ _ => sampleLanguage_tells expected _)
      compiled).mpr types⟩

/-- The contract asks for page `1`, the configuration for page `true`. -/
theorem true_page_not_bound :
    compileHttpActionExecutionSpec sampleLanguage "api" "list"
      (declares (.int 1) trivial).entries (configures (.bool true) trivial).entries =
        .ok (samplePayload (.bool true) (.int 1)) ∧
    (samplePayload (.bool true) (.int 1)).shapeDigest ≠
      httpActionShapeDigest sampleLanguage (samplePayload (.bool true) (.int 1)).shape := by
  refine ⟨rfl, ?_⟩
  decide +kernel

end Digest

end RExecOp.ActionShape
