import Scanipy.Analysis.CpgIngest.JoernSchema
import Scanipy.Python.JsonFields
import Scanipy.Python.Patterns
import Scanipy.Python.Uuid

/-! The strict reader of raw Joern exports: the shape of a document, its producer, its nodes and its
edges. It adds no meaning to what it reads.
-/

namespace Scanipy.Analysis.CpgIngest.RawV2

open Library Python

/-- What the reader raises: `RawExportError`, `RawExportFailedError`, and the `ValueError` of `int`
for a numeral of more than 4300 digits. `outOfFuel` is no exception of the source: a walk of the
model stopped early.
-/
inductive ReadError where
  | rawExport (message : Text)
  | rawExportFailed (message : Text)
  | valueError
  | keyError
  | outOfFuel
  deriving DecidableEq

/-- `if not condition: raise RawExportError(message)`. -/
def require (condition : Prop) [Decidable condition] (message : Text) : Except ReadError Unit :=
  demand condition (.rawExport message)

/-- `_object`. -/
def object (value : Json) (label : Text) : Except ReadError (List (Text × Json)) :=
  match value with
  | .obj members => .ok members
  | _ => .error (.rawExport (label ++ py " must be an object with string keys"))

/-- `_shape`. -/
def shape (value : Json) (keys : List String) (label : Text) : Except ReadError Json := do
  let members ← object value label
  require (HasKeys members keys) (label ++ py " has missing or unknown fields")
  .ok value

/-- `_string`. -/
def string (value : Json) (label : Text) (nonempty : Bool) : Except ReadError Text :=
  match value with
  | .str text => do
      require (nonempty = true → text ≠ [])
        (label ++ py " must be a " ++ (if nonempty then py "nonempty " else []) ++ py "string")
      require text.Encodable (label ++ py " must be valid UTF-8")
      .ok text
  | _ =>
      .error (.rawExport
        (label ++ py " must be a " ++ (if nonempty then py "nonempty " else []) ++ py "string"))

/-- `_digest`. -/
def digest (value : Json) (label : Text) : Except ReadError Text := do
  let text ← string value label true
  require (fullmatch hexPattern text) (label ++ py " must be lowercase SHA256 hex")
  .ok text

/-- `_array`. -/
def array (value : Json) (label : Text) : Except ReadError (List Json) :=
  match value with
  | .arr items => .ok items
  | _ => .error (.rawExport (label ++ py " must be an array"))

/-- `PurePosixPath(path).is_absolute()`, and no null character. -/
def IsLocator (path : Text) : Prop :=
  py "/" <+: path ∧ 0 ∉ path

instance (path : Text) : Decidable (IsLocator path) :=
  inferInstanceAs (Decidable (_ ∧ _))

/-- `_artifact`. -/
def artifact (value : Json) (label : Text) (tool : Bool) : Except ReadError Json := do
  let obj ← shape value (["path", "sha256"] ++ if tool then ["role", "version"] else []) label
  let path ← string (obj.get "path") (label ++ py ".path") true
  require (IsLocator path) (label ++ py ".path must be an absolute locator")
  let _ ← digest (obj.get "sha256") (label ++ py ".sha256")
  .ok obj

/-- What the loop of `source_tree_digest` keeps: the bytes that were hashed and the path before. -/
structure Manifest where
  hashed : Bytes := pyb "scanipy-source-tree/1\x00"
  previous : Option Bytes := none

/-- The parts of a path, none of which is empty or a step to a directory. -/
def IsRelativePath (path : Text) : Prop :=
  ¬py "/" <+: path
  ∧ (∀ part ∈ path.splitOn (Fin.ofNat 0x110000 0x2F), part ≠ [] ∧ part ≠ py "." ∧ part ≠ py "..")
  ∧ 0 ∉ path

instance (path : Text) : Decidable (IsRelativePath path) :=
  inferInstanceAs (Decidable (_ ∧ _ ∧ _))

/-- One entry of the manifest. -/
def Manifest.add (manifest : Manifest) (value : Json) : Except ReadError Manifest := do
  let entry ← shape value ["path", "size", "sha256"] (py "source file")
  let path ← string (entry.get "path") (py "source file.path") true
  require (IsRelativePath path)
    (py "source file.path must be a normalized relative POSIX path")
  let encoded := path.utf8
  require (manifest.previous.all fun previous => previous < encoded)
    (py "source file paths must be unique and UTF-8-byte sorted")
  let size ←
    match entry.get "size" with
    | .int size =>
        if 0 ≤ size ∧ size ≤ 2 ^ 53 - 1 then .ok size.toNat
        else .error (.rawExport (py "source file.size must be an exact nonnegative JSON integer"))
    | _ => .error (.rawExport (py "source file.size must be an exact nonnegative JSON integer"))
  let sha ← digest (entry.get "sha256") (py "source file.sha256")
  .ok {
    hashed :=
      manifest.hashed ++ toBytes 8 encoded.length ++ encoded ++ toBytes 8 size
      ++ toBytes 32 (hexNumber sha)
    previous := some encoded }

variable (sha256 : Bytes → Bytes)

/-- `source_tree_digest`. -/
def sourceTreeDigest (files : Json) : Except ReadError Text := do
  let items ← array files (py "source.files")
  let manifest ← items.foldlM Manifest.add {}
  .ok (hex (sha256 manifest.hashed))

/-- `_TOOL_VERSIONS`. -/
def toolVersions : Dict Text Text :=
  [
    (py "joern-console", py "4.0.554"),
    (py "frontend", py "4.0.554"),
    (py "cpg-domain", py "1.7.65"),
    (py "flatgraph-core", py "0.1.31")
  ]

/-- The body of the loop over the tools, with the roles that were met. -/
def addTool (roles : PySet Text) (rawTool : Json) : Except ReadError (PySet Text) := do
  let tool ← artifact rawTool (py "producer tool") true
  let role ← string (tool.get "role") (py "tool.role") true
  require (role ∉ roles ∧ role ∈ toolVersions.keys)
    (py "unknown or duplicate producer tool role")
  require (tool.get "version" = .str (toolVersions.getD role []))
    (py "unsupported runtime version for " ++ role)
  .ok (PySet.add roles role)

/-- `_producer`: the frontend. -/
def producer (value : Json) : Except ReadError Text := do
  let producer ← shape value
    ["schema_version", "image", "tools", "script", "input_cpg", "source", "frontend",
      "import_mode", "java_runtime_version", "java_tool_options"]
    (py "producer")
  require (producer.get "schema_version" = .int 1) (py "unsupported producer schema version")
  let image ← shape (producer.get "image") ["kind", "reference", "observation"]
    (py "producer.image")
  require
    (image.get "kind" = .str (py "docker-image-id")
      ∧ image.get "observation" = .str (py "caller-observed"))
    (py "unsupported image identity/observation contract")
  let reference ← string (image.get "reference") (py "image.reference") true
  require (py "sha256:" <+: reference) (py "image reference must be a SHA256 Docker image ID")
  let _ ← digest (.str (reference.drop 7)) (py "image.reference")
  let tools ← array (producer.get "tools") (py "producer.tools")
  let roles ← tools.foldlM addTool []
  require (∀ role ∈ toolVersions.keys, role ∈ roles) (py "missing producer tool identity")
  let _ ← artifact (producer.get "script") (py "producer.script") false
  let _ ← artifact (producer.get "input_cpg") (py "producer.input_cpg") false
  let source ← shape (producer.get "source") ["root", "tree_namespace", "tree_sha256", "files"]
    (py "producer.source")
  let root ← string (source.get "root") (py "source.root") true
  require (IsLocator root) (py "source root must be an absolute locator")
  require (source.get "tree_namespace" = .str (py "scanipy-source-tree/1"))
    (py "unsupported source-tree namespace")
  let declared ← digest (source.get "tree_sha256") (py "source.tree_sha256")
  let computed ← sourceTreeDigest sha256 (source.get "files")
  require (declared = computed) (py "source tree digest does not bind the manifest")
  let frontend ← string (producer.get "frontend") (py "producer.frontend") true
  require (frontend ∈ [py "javasrc", py "pythonsrc"]) (py "unsupported raw-v2 frontend")
  require (producer.get "import_mode" = .str (py "importCpg-default-overlays"))
    (py "unsupported import mode")
  let _ ← string (producer.get "java_runtime_version") (py "producer.java_runtime_version") true
  let _ ← string (producer.get "java_tool_options") (py "producer.java_tool_options") false
  .ok frontend

/-- One value of a property. -/
def propertyItem (nativeType : NativeType) (label : Text) (item : Json) : Except ReadError Unit :=
  match nativeType, item with
  | .str, .str text => do
      let _ ← string (.str text) label false
      .ok ()
  | .int, .int value =>
      require (-2 ^ 31 ≤ value ∧ value < 2 ^ 31) (label ++ py " exceeds pinned IntType range")
  | .bool, .bool _ => .ok ()
  | _, _ => .error (.rawExport (label ++ py " has incorrect native property type"))

/-- `_property`. -/
def property (value : Json) (nativeType : NativeType) (quantity : Quantity) (label : Text)
    : Except ReadError Unit := do
  let values ←
    match quantity with
    | .many => array value label
    | .one | .optional => .ok [value]
  Metered.visit (propertyItem nativeType label) values

/-- `_ID`. -/
def isNodeId (text : Text) : Bool :=
  text == py "0" || startsWith (between 0x31 0x39) isDigit text

/-- What the loop of `_nodes` keeps. -/
structure NodeTable where
  byId : Dict Text Json := []
  metadata : List (List (Text × Json)) := []

/-- The properties that have to be there, and are not. -/
def missingProperties (allowed : PropertyTable) (properties : List (Text × Json)) : List Text :=
  sorted ((allowed.filter fun entry =>
    entry.2.2 = .one ∧ entry.1 ∉ properties.map Prod.fst).map Prod.fst)

/-- The checks of a node's properties against its kind. -/
def checkProperties (kind : Text) (allowed : PropertyTable) (properties : List (Text × Json))
    (missing : Json)
    : Except ReadError Unit := do
  require (∀ entry ∈ properties, entry.1 ∈ allowed.keys) (py "unknown property for " ++ kind)
  Metered.visit
    (fun entry => do
      let declared := allowed.getD entry.1 (.str, .one)
      property entry.2 declared.1 declared.2 (kind ++ py "." ++ entry.1))
    properties
  let names ← array missing (py "node.missing_properties")
  require (names = (missingProperties allowed properties).map Json.str)
    (py "missing pinned properties must be explicit for " ++ kind)

/-- The body of the loop of `_nodes`. -/
def NodeTable.add (table : NodeTable) (rawNode : Json) : Except ReadError NodeTable := do
  let node ← shape rawNode ["id", "kind", "properties", "missing_properties"] (py "node")
  let nodeId ← string (node.get "id") (py "node.id") true
  require (isNodeId nodeId) (py "invalid or duplicate node ID")
  demand (nodeId.length ≤ 4300) .valueError
  require (Json.digitsValue nodeId ≤ 2 ^ 63 - 1 ∧ nodeId ∉ table.byId.keys)
    (py "invalid or duplicate node ID")
  let kind ← string (node.get "kind") (py "node.kind") true
  require (kind ∈ nodeProperties.keys) (py "unsupported pinned node kind: " ++ kind)
  let properties ← object (node.get "properties") (py "node.properties")
  checkProperties kind (nodeProperties.getD kind []) properties (node.get "missing_properties")
  .ok {
    byId := table.byId.set nodeId node
    metadata := if kind = py "META_DATA" then table.metadata ++ [properties] else table.metadata }

/-- `str.upper` of a letter from a to z. -/
def upper (point : CodePoint) : CodePoint :=
  if between 0x61 0x7A point then Fin.ofNat 0x110000 (point.val - 0x20) else point

/-- `_nodes`. -/
def readNodes (value : Json) (frontend : Text) : Except ReadError (Dict Text Json) := do
  let items ← array value (py "nodes")
  let table ← items.foldlM NodeTable.add {}
  require
    (table.metadata.map (fun properties => Dict.get? properties (py "LANGUAGE"))
      = [some (.str (frontend.map upper))])
    (py "expected one metadata node matching the declared frontend")
  .ok table.byId

-- Edges

/-- The ends of an edge and its kind. -/
structure RawEdge where
  src : Text
  dst : Text
  kind : Text
  deriving DecidableEq

/-- `nodes[node_id]["kind"]`. -/
def kindOf (nodes : Dict Text Json) (nodeId : Text) : Text :=
  ((nodes.getD nodeId .null).get "kind").chars

/-- The checks of an edge that come before its ownership. -/
def readEdge (nodes : Dict Text Json) (rawEdge : Json) : Except ReadError RawEdge := do
  let edge ← shape rawEdge ["src", "dst", "kind", "properties"] (py "edge")
  let src ← string (edge.get "src") (py "edge.src") true
  let dst ← string (edge.get "dst") (py "edge.dst") true
  require (src ∈ nodes.keys ∧ dst ∈ nodes.keys) (py "dangling edge endpoint")
  let kind ← string (edge.get "kind") (py "edge.kind") true
  require (kind ∈ edgeProperties.keys) (py "unsupported pinned edge kind: " ++ kind)
  let properties ← object (edge.get "properties") (py "edge.properties")
  require (∀ entry ∈ properties, some entry.1 = edgeProperties.getD kind none)
    (py "unknown property for " ++ kind)
  Metered.visit
    (fun entry => do
      let _ ← string entry.2 (kind ++ py " property") false
      .ok ())
    properties
  .ok { src, dst, kind }

/-- `ast_parents` and `parameter_links`. -/
structure EdgeLinks where
  astParents : Dict Text Text := []
  parameterLinks : List (Text × Text) := []

/-- A node may be owned twice only by the same node. -/
def EdgeLinks.own (links : EdgeLinks) (edge : RawEdge) : Except ReadError EdgeLinks :=
  if edge.kind = py "AST" then do
    require (links.astParents.getD edge.dst edge.src = edge.src)
      (py "AST node cannot have multiple owners")
    .ok { links with astParents := links.astParents.set edge.dst edge.src }
  else
    .ok links

def EdgeLinks.link (links : EdgeLinks) (edge : RawEdge) : EdgeLinks :=
  if edge.kind = py "PARAMETER_LINK" then
    { links with parameterLinks := links.parameterLinks ++ [(edge.src, edge.dst)] }
  else
    links

/-- `expression_kinds`. -/
def expressionKinds : List Text :=
  (nodeProperties.filter fun entry => py "ARGUMENT_INDEX" ∈ entry.2.keys).map Prod.fst

/-- The checks of the kinds of an edge's ends. -/
def checkEnds (nodes : Dict Text Json) (edge : RawEdge) : Except ReadError Unit := do
  let sourceKind := kindOf nodes edge.src
  let targetKind := kindOf nodes edge.dst
  require
    (edge.kind = py "CALL" → sourceKind = py "CALL" ∧ targetKind = py "METHOD")
    (py "CALL must connect a call to a method")
  require
    (edge.kind = py "PARAMETER_LINK"
      → sourceKind = py "METHOD_PARAMETER_IN" ∧ targetKind = py "METHOD_PARAMETER_OUT")
    (py "PARAMETER_LINK must connect formal input to formal output")
  require
    (edge.kind = py "RECEIVER" → sourceKind = py "CALL" ∧ targetKind ∈ expressionKinds)
    (py "RECEIVER must connect a call to its callee expression")
  require
    (edge.kind = py "ARGUMENT"
      → sourceKind ∈ [py "CALL", py "RETURN"] ∧ targetKind ∈ expressionKinds)
    (py "ARGUMENT must connect a call/return to an expression")
  require
    (edge.kind = py "REF" ∧ sourceKind = py "IDENTIFIER"
      → targetKind ∈
          [py "LOCAL", py "METHOD_PARAMETER_IN", py "MEMBER", py "TYPE_DECL", py "METHOD"])
    (py "identifier REF must target a declaration")

/-- The body of the loop of `_edges`. -/
def EdgeLinks.add (nodes : Dict Text Json) (links : EdgeLinks) (rawEdge : Json)
    : Except ReadError EdgeLinks := do
  let edge ← readEdge nodes rawEdge
  let owned ← links.own edge
  checkEnds nodes edge
  .ok (owned.link edge)

/-- The inner loop of `_ownership`: up the parents, to one that was checked or has none. -/
def walk (astParents : Dict Text Text) (checked : PySet Text)
    : (fuel : Nat) → (trail : PySet Text) → (cursor : Text) → Except ReadError (PySet Text)
  | 0, _, _ => .error .outOfFuel
  | fuel + 1, trail, cursor =>
      match astParents.get? cursor with
      | none => .ok trail
      | some parent =>
          if cursor ∈ checked then .ok trail
          else if cursor ∈ trail then .error (.rawExport (py "cyclic AST ownership"))
          else walk astParents checked fuel (PySet.add trail cursor) parent

/-- The first loop of `_ownership`. Every round of a walk meets another parented node, or the last
one.
-/
def checkTrails (astParents : Dict Text Text) : Except ReadError (PySet Text) :=
  astParents.keys.foldlM
    (fun checked nodeId => do
      let trail ← walk astParents checked (astParents.length + 1) [] nodeId
      .ok (PySet.update checked trail))
    []

/-- The kinds of nodes that their method owns directly. -/
def formalKinds : List Text :=
  [py "METHOD_PARAMETER_IN", py "METHOD_PARAMETER_OUT", py "METHOD_RETURN"]

/-- The second loop of `_ownership`. -/
def checkFormal (nodes : Dict Text Json) (astParents : Dict Text Text) (nodeId : Text)
    : Except ReadError Unit :=
  require
    (kindOf nodes nodeId ∈ formalKinds
      → (astParents.get? nodeId).map (kindOf nodes) = some (py "METHOD"))
    (py "formal/return node must have a direct METHOD AST owner")

/-- The third loop of `_ownership`. -/
def checkLink (astParents : Dict Text Text) (link : Text × Text) : Except ReadError Unit :=
  match astParents.get? link.1, astParents.get? link.2 with
  | some source, some target =>
      require (source = target) (py "PARAMETER_LINK endpoints must belong to the same method")
  | _, _ => .error .keyError

/-- `_ownership`. -/
def ownership (nodes : Dict Text Json) (links : EdgeLinks) : Except ReadError Unit := do
  let _ ← checkTrails links.astParents
  Metered.visit (checkFormal nodes links.astParents) nodes.keys
  Metered.visit (checkLink links.astParents) links.parameterLinks

/-- `_edges`. -/
def checkEdges (value : Json) (nodes : Dict Text Json) : Except ReadError Unit := do
  let items ← array value (py "edges")
  let links ← items.foldlM (EdgeLinks.add nodes) {}
  ownership nodes links

/-- `_RAW_CAPS`. -/
def rawCaps : List String :=
  ["raw_nodes", "raw_edges", "typed_properties"]

/-- `_DERIVED_CAPS`. -/
def derivedCaps : List String :=
  ["call_target_completeness", "actual_formal_binding", "return_result_binding",
    "effect_analysis", "purity_certification"]

/-- The body of the loop over the capabilities. -/
def checkCapability (status : Text) (entry : Text × Json) : Except ReadError Unit := do
  let capability ← shape entry.2 ["status", "reason"] (py "capability " ++ entry.1)
  let expected := if entry.1 ∈ rawCaps.map py then status else py "unsupported"
  require (capability.get "status" = .str expected)
    (py "invalid certainty for capability " ++ entry.1)
  let _ ← string (capability.get "reason") (py "capability " ++ entry.1 ++ py ".reason") true
  .ok ()

/-- A report of a failure. -/
def checkFailure (document : Json) (requireCompleted : Bool) : Except ReadError Unit := do
  require (document.get "nodes" = .null ∧ document.get "edges" = .null)
    (py "failed export cannot publish partially complete arrays")
  let error ← shape (document.get "error") ["code", "message"] (py "error")
  require (error.get "code" = .str (py "raw-export-failed")) (py "unknown export error code")
  let _ ← string (error.get "message") (py "error.message") true
  demand (requireCompleted = false)
    (.rawExportFailed (py "raw export failed; no completed graph is available"))

/-- Everything before the nodes: the frontend, or `none` for a report of a failure. -/
def checkHeader (value : Json) (requireCompleted : Bool) : Except ReadError (Option Text) := do
  let document ← shape value
    ["format", "format_version", "status", "producer", "capabilities", "nodes", "edges", "error"]
    (py "raw export")
  require (document.get "format" = .str (py "scanipy-joern-export"))
    (py "unsupported export format")
  require (document.get "format_version" = .int 2) (py "unsupported raw export version")
  let frontend ← producer sha256 (document.get "producer")
  let status ← string (document.get "status") (py "status") true
  require (status ∈ [py "completed", py "failed"]) (py "unsupported export status")
  let capabilities ← shape (document.get "capabilities") (rawCaps ++ derivedCaps)
    (py "capabilities")
  let entries ← object capabilities (py "capabilities")
  Metered.visit (checkCapability status) entries
  if status = py "failed" then do
    checkFailure document requireCompleted
    .ok none
  else do
    require (document.get "error" = .null) (py "completed export cannot contain an error")
    .ok (some frontend)

/-- `validate_raw_export`. -/
def validateRawExport (value : Json) (requireCompleted : Bool) : Except ReadError Unit := do
  let completed ← checkHeader sha256 value requireCompleted
  match completed with
  | none => .ok ()
  | some frontend => do
      let nodes ← readNodes (value.get "nodes") frontend
      checkEdges (value.get "edges") nodes

end Scanipy.Analysis.CpgIngest.RawV2
