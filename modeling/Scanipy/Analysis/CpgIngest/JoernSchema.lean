import Scanipy.Python.Dict
import Scanipy.Python.Text

/-! The pinned schema of Joern exports: the properties of every kind of node and edge. -/

namespace Scanipy.Analysis.CpgIngest.RawV2

open Python

inductive NativeType where
  | str
  | int
  | bool
  deriving DecidableEq

inductive Quantity where
  | one
  | optional
  | many
  deriving DecidableEq

/-- The properties of one kind of node. -/
abbrev PropertyTable :=
  Dict Text (NativeType × Quantity)

/-- An entry of `NODE_PROPERTIES`. -/
def kind (name : String) (properties : List (String × NativeType × Quantity))
    : Text × PropertyTable :=
  (py name, properties.map fun property => (py property.1, property.2))

/-- `NODE_PROPERTIES`. -/
def nodeProperties : Dict Text PropertyTable :=
  [
    kind "ANNOTATION" [
      ("ARGUMENT_INDEX", .int, .one), ("ARGUMENT_LABEL", .str, .optional),
      ("ARGUMENT_NAME", .str, .optional), ("CODE", .str, .one),
      ("COLUMN_NUMBER", .int, .optional), ("FULL_NAME", .str, .one),
      ("LINE_NUMBER", .int, .optional), ("NAME", .str, .one), ("OFFSET", .int, .optional),
      ("OFFSET_END", .int, .optional), ("ORDER", .int, .one)],
    kind "ANNOTATION_LITERAL" [
      ("ARGUMENT_INDEX", .int, .one), ("ARGUMENT_LABEL", .str, .optional),
      ("ARGUMENT_NAME", .str, .optional), ("CODE", .str, .one),
      ("COLUMN_NUMBER", .int, .optional), ("LINE_NUMBER", .int, .optional), ("NAME", .str, .one),
      ("OFFSET", .int, .optional), ("OFFSET_END", .int, .optional), ("ORDER", .int, .one)],
    kind "ANNOTATION_PARAMETER" [
      ("CODE", .str, .one), ("COLUMN_NUMBER", .int, .optional), ("LINE_NUMBER", .int, .optional),
      ("OFFSET", .int, .optional), ("OFFSET_END", .int, .optional), ("ORDER", .int, .one)],
    kind "ANNOTATION_PARAMETER_ASSIGN" [
      ("CODE", .str, .one), ("COLUMN_NUMBER", .int, .optional), ("LINE_NUMBER", .int, .optional),
      ("OFFSET", .int, .optional), ("OFFSET_END", .int, .optional), ("ORDER", .int, .one)],
    kind "ARRAY_INITIALIZER" [
      ("ARGUMENT_INDEX", .int, .one), ("ARGUMENT_LABEL", .str, .optional),
      ("ARGUMENT_NAME", .str, .optional), ("CODE", .str, .one),
      ("COLUMN_NUMBER", .int, .optional), ("LINE_NUMBER", .int, .optional),
      ("OFFSET", .int, .optional), ("OFFSET_END", .int, .optional), ("ORDER", .int, .one)],
    kind "BINDING" [
      ("METHOD_FULL_NAME", .str, .one), ("NAME", .str, .one), ("SIGNATURE", .str, .one)],
    kind "BLOCK" [
      ("ARGUMENT_INDEX", .int, .one), ("ARGUMENT_LABEL", .str, .optional),
      ("ARGUMENT_NAME", .str, .optional), ("CODE", .str, .one),
      ("COLUMN_NUMBER", .int, .optional), ("DYNAMIC_TYPE_HINT_FULL_NAME", .str, .many),
      ("LINE_NUMBER", .int, .optional), ("OFFSET", .int, .optional),
      ("OFFSET_END", .int, .optional), ("ORDER", .int, .one), ("POSSIBLE_TYPES", .str, .many),
      ("TYPE_FULL_NAME", .str, .one)],
    kind "CALL" [
      ("ARGUMENT_INDEX", .int, .one), ("ARGUMENT_LABEL", .str, .optional),
      ("ARGUMENT_NAME", .str, .optional), ("CODE", .str, .one),
      ("COLUMN_NUMBER", .int, .optional), ("DISPATCH_TYPE", .str, .one),
      ("DYNAMIC_TYPE_HINT_FULL_NAME", .str, .many), ("LINE_NUMBER", .int, .optional),
      ("METHOD_FULL_NAME", .str, .one), ("NAME", .str, .one), ("OFFSET", .int, .optional),
      ("OFFSET_END", .int, .optional), ("ORDER", .int, .one), ("POSSIBLE_TYPES", .str, .many),
      ("SIGNATURE", .str, .one), ("STATIC_RECEIVER", .str, .optional),
      ("TYPE_FULL_NAME", .str, .one)],
    kind "CLOSURE_BINDING" [
      ("CLOSURE_BINDING_ID", .str, .optional), ("EVALUATION_STRATEGY", .str, .one)],
    kind "COMMENT" [
      ("CODE", .str, .one), ("COLUMN_NUMBER", .int, .optional), ("FILENAME", .str, .one),
      ("LINE_NUMBER", .int, .optional), ("OFFSET", .int, .optional),
      ("OFFSET_END", .int, .optional), ("ORDER", .int, .one)],
    kind "CONFIG_FILE" [
      ("CONTENT", .str, .one), ("NAME", .str, .one)],
    kind "CONTROL_STRUCTURE" [
      ("ARGUMENT_INDEX", .int, .one), ("ARGUMENT_LABEL", .str, .optional),
      ("ARGUMENT_NAME", .str, .optional), ("CODE", .str, .one),
      ("COLUMN_NUMBER", .int, .optional), ("CONTROL_STRUCTURE_TYPE", .str, .one),
      ("LINE_NUMBER", .int, .optional), ("OFFSET", .int, .optional),
      ("OFFSET_END", .int, .optional), ("ORDER", .int, .one), ("PARSER_TYPE_NAME", .str, .one)],
    kind "DEPENDENCY" [
      ("DEPENDENCY_GROUP_ID", .str, .optional), ("NAME", .str, .one), ("VERSION", .str, .one)],
    kind "FIELD_IDENTIFIER" [
      ("ARGUMENT_INDEX", .int, .one), ("ARGUMENT_LABEL", .str, .optional),
      ("ARGUMENT_NAME", .str, .optional), ("CANONICAL_NAME", .str, .one), ("CODE", .str, .one),
      ("COLUMN_NUMBER", .int, .optional), ("LINE_NUMBER", .int, .optional),
      ("OFFSET", .int, .optional), ("OFFSET_END", .int, .optional), ("ORDER", .int, .one)],
    kind "FILE" [
      ("CODE", .str, .one), ("COLUMN_NUMBER", .int, .optional), ("CONTENT", .str, .one),
      ("HASH", .str, .optional), ("LINE_NUMBER", .int, .optional), ("NAME", .str, .one),
      ("OFFSET", .int, .optional), ("OFFSET_END", .int, .optional), ("ORDER", .int, .one)],
    kind "FINDING" [
      ("EVIDENCE_DESCRIPTION", .str, .many)],
    kind "IDENTIFIER" [
      ("ARGUMENT_INDEX", .int, .one), ("ARGUMENT_LABEL", .str, .optional),
      ("ARGUMENT_NAME", .str, .optional), ("CODE", .str, .one),
      ("COLUMN_NUMBER", .int, .optional), ("DYNAMIC_TYPE_HINT_FULL_NAME", .str, .many),
      ("LINE_NUMBER", .int, .optional), ("NAME", .str, .one), ("OFFSET", .int, .optional),
      ("OFFSET_END", .int, .optional), ("ORDER", .int, .one), ("POSSIBLE_TYPES", .str, .many),
      ("TYPE_FULL_NAME", .str, .one)],
    kind "IMPORT" [
      ("CODE", .str, .one), ("COLUMN_NUMBER", .int, .optional), ("EXPLICIT_AS", .bool, .optional),
      ("IMPORTED_AS", .str, .optional), ("IMPORTED_ENTITY", .str, .optional),
      ("IS_EXPLICIT", .bool, .optional), ("IS_MODULE_IMPORT", .bool, .optional),
      ("IS_WILDCARD", .bool, .optional), ("LINE_NUMBER", .int, .optional),
      ("OFFSET", .int, .optional), ("OFFSET_END", .int, .optional), ("ORDER", .int, .one)],
    kind "JUMP_LABEL" [
      ("CODE", .str, .one), ("COLUMN_NUMBER", .int, .optional), ("LINE_NUMBER", .int, .optional),
      ("NAME", .str, .one), ("OFFSET", .int, .optional), ("OFFSET_END", .int, .optional),
      ("ORDER", .int, .one), ("PARSER_TYPE_NAME", .str, .one)],
    kind "JUMP_TARGET" [
      ("ARGUMENT_INDEX", .int, .one), ("CODE", .str, .one), ("COLUMN_NUMBER", .int, .optional),
      ("LINE_NUMBER", .int, .optional), ("NAME", .str, .one), ("OFFSET", .int, .optional),
      ("OFFSET_END", .int, .optional), ("ORDER", .int, .one), ("PARSER_TYPE_NAME", .str, .one)],
    kind "KEY_VALUE_PAIR" [
      ("KEY", .str, .one), ("VALUE", .str, .one)],
    kind "LITERAL" [
      ("ARGUMENT_INDEX", .int, .one), ("ARGUMENT_LABEL", .str, .optional),
      ("ARGUMENT_NAME", .str, .optional), ("CODE", .str, .one),
      ("COLUMN_NUMBER", .int, .optional), ("DYNAMIC_TYPE_HINT_FULL_NAME", .str, .many),
      ("LINE_NUMBER", .int, .optional), ("OFFSET", .int, .optional),
      ("OFFSET_END", .int, .optional), ("ORDER", .int, .one), ("POSSIBLE_TYPES", .str, .many),
      ("TYPE_FULL_NAME", .str, .one)],
    kind "LOCAL" [
      ("CLOSURE_BINDING_ID", .str, .optional), ("CODE", .str, .one),
      ("COLUMN_NUMBER", .int, .optional), ("DYNAMIC_TYPE_HINT_FULL_NAME", .str, .many),
      ("GENERIC_SIGNATURE", .str, .one), ("LINE_NUMBER", .int, .optional), ("NAME", .str, .one),
      ("OFFSET", .int, .optional), ("OFFSET_END", .int, .optional), ("ORDER", .int, .one),
      ("POSSIBLE_TYPES", .str, .many), ("TYPE_FULL_NAME", .str, .one)],
    kind "MEMBER" [
      ("AST_PARENT_FULL_NAME", .str, .one), ("AST_PARENT_TYPE", .str, .one), ("CODE", .str, .one),
      ("COLUMN_NUMBER", .int, .optional), ("DYNAMIC_TYPE_HINT_FULL_NAME", .str, .many),
      ("GENERIC_SIGNATURE", .str, .one), ("LINE_NUMBER", .int, .optional), ("NAME", .str, .one),
      ("OFFSET", .int, .optional), ("OFFSET_END", .int, .optional), ("ORDER", .int, .one),
      ("POSSIBLE_TYPES", .str, .many), ("TYPE_FULL_NAME", .str, .one)],
    kind "META_DATA" [
      ("HASH", .str, .optional), ("LANGUAGE", .str, .one), ("OVERLAYS", .str, .many),
      ("ROOT", .str, .one), ("VERSION", .str, .one)],
    kind "METHOD" [
      ("AST_PARENT_FULL_NAME", .str, .one), ("AST_PARENT_TYPE", .str, .one), ("CODE", .str, .one),
      ("COLUMN_NUMBER", .int, .optional), ("COLUMN_NUMBER_END", .int, .optional),
      ("FILENAME", .str, .one), ("FULL_NAME", .str, .one), ("GENERIC_SIGNATURE", .str, .one),
      ("HASH", .str, .optional), ("IS_EXTERNAL", .bool, .one), ("LINE_NUMBER", .int, .optional),
      ("LINE_NUMBER_END", .int, .optional), ("NAME", .str, .one), ("OFFSET", .int, .optional),
      ("OFFSET_END", .int, .optional), ("ORDER", .int, .one), ("SIGNATURE", .str, .one)],
    kind "METHOD_PARAMETER_IN" [
      ("CLOSURE_BINDING_ID", .str, .optional), ("CODE", .str, .one),
      ("COLUMN_NUMBER", .int, .optional), ("DYNAMIC_TYPE_HINT_FULL_NAME", .str, .many),
      ("EVALUATION_STRATEGY", .str, .one), ("INDEX", .int, .one), ("IS_VARIADIC", .bool, .one),
      ("LINE_NUMBER", .int, .optional), ("NAME", .str, .one), ("OFFSET", .int, .optional),
      ("OFFSET_END", .int, .optional), ("ORDER", .int, .one), ("POSSIBLE_TYPES", .str, .many),
      ("TYPE_FULL_NAME", .str, .one)],
    kind "METHOD_PARAMETER_OUT" [
      ("CODE", .str, .one), ("COLUMN_NUMBER", .int, .optional),
      ("EVALUATION_STRATEGY", .str, .one), ("INDEX", .int, .one), ("IS_VARIADIC", .bool, .one),
      ("LINE_NUMBER", .int, .optional), ("NAME", .str, .one), ("OFFSET", .int, .optional),
      ("OFFSET_END", .int, .optional), ("ORDER", .int, .one), ("TYPE_FULL_NAME", .str, .one)],
    kind "METHOD_REF" [
      ("ARGUMENT_INDEX", .int, .one), ("ARGUMENT_LABEL", .str, .optional),
      ("ARGUMENT_NAME", .str, .optional), ("CODE", .str, .one),
      ("COLUMN_NUMBER", .int, .optional), ("DYNAMIC_TYPE_HINT_FULL_NAME", .str, .many),
      ("LINE_NUMBER", .int, .optional), ("METHOD_FULL_NAME", .str, .one),
      ("OFFSET", .int, .optional), ("OFFSET_END", .int, .optional), ("ORDER", .int, .one),
      ("POSSIBLE_TYPES", .str, .many), ("TYPE_FULL_NAME", .str, .one)],
    kind "METHOD_RETURN" [
      ("CODE", .str, .one), ("COLUMN_NUMBER", .int, .optional),
      ("DYNAMIC_TYPE_HINT_FULL_NAME", .str, .many), ("EVALUATION_STRATEGY", .str, .one),
      ("LINE_NUMBER", .int, .optional), ("OFFSET", .int, .optional),
      ("OFFSET_END", .int, .optional), ("ORDER", .int, .one), ("POSSIBLE_TYPES", .str, .many),
      ("TYPE_FULL_NAME", .str, .one)],
    kind "MODIFIER" [
      ("CODE", .str, .one), ("COLUMN_NUMBER", .int, .optional), ("LINE_NUMBER", .int, .optional),
      ("MODIFIER_TYPE", .str, .one), ("OFFSET", .int, .optional), ("OFFSET_END", .int, .optional),
      ("ORDER", .int, .one)],
    kind "NAMESPACE" [
      ("CODE", .str, .one), ("COLUMN_NUMBER", .int, .optional), ("LINE_NUMBER", .int, .optional),
      ("NAME", .str, .one), ("OFFSET", .int, .optional), ("OFFSET_END", .int, .optional),
      ("ORDER", .int, .one)],
    kind "NAMESPACE_BLOCK" [
      ("CODE", .str, .one), ("COLUMN_NUMBER", .int, .optional), ("FILENAME", .str, .one),
      ("FULL_NAME", .str, .one), ("LINE_NUMBER", .int, .optional), ("NAME", .str, .one),
      ("OFFSET", .int, .optional), ("OFFSET_END", .int, .optional), ("ORDER", .int, .one)],
    kind "RETURN" [
      ("ARGUMENT_INDEX", .int, .one), ("ARGUMENT_LABEL", .str, .optional),
      ("ARGUMENT_NAME", .str, .optional), ("CODE", .str, .one),
      ("COLUMN_NUMBER", .int, .optional), ("LINE_NUMBER", .int, .optional),
      ("OFFSET", .int, .optional), ("OFFSET_END", .int, .optional), ("ORDER", .int, .one)],
    kind "TAG" [
      ("NAME", .str, .one), ("VALUE", .str, .one)],
    kind "TAG_NODE_PAIR" [
      ],
    kind "TEMPLATE_DOM" [
      ("ARGUMENT_INDEX", .int, .one), ("ARGUMENT_LABEL", .str, .optional),
      ("ARGUMENT_NAME", .str, .optional), ("CODE", .str, .one),
      ("COLUMN_NUMBER", .int, .optional), ("LINE_NUMBER", .int, .optional), ("NAME", .str, .one),
      ("OFFSET", .int, .optional), ("OFFSET_END", .int, .optional), ("ORDER", .int, .one)],
    kind "TYPE" [
      ("FULL_NAME", .str, .one), ("NAME", .str, .one), ("TYPE_DECL_FULL_NAME", .str, .one)],
    kind "TYPE_ARGUMENT" [
      ("CODE", .str, .one), ("COLUMN_NUMBER", .int, .optional), ("LINE_NUMBER", .int, .optional),
      ("OFFSET", .int, .optional), ("OFFSET_END", .int, .optional), ("ORDER", .int, .one)],
    kind "TYPE_DECL" [
      ("ALIAS_TYPE_FULL_NAME", .str, .optional), ("AST_PARENT_FULL_NAME", .str, .one),
      ("AST_PARENT_TYPE", .str, .one), ("CODE", .str, .one), ("COLUMN_NUMBER", .int, .optional),
      ("FILENAME", .str, .one), ("FULL_NAME", .str, .one), ("GENERIC_SIGNATURE", .str, .one),
      ("INHERITS_FROM_TYPE_FULL_NAME", .str, .many), ("IS_EXTERNAL", .bool, .one),
      ("LINE_NUMBER", .int, .optional), ("NAME", .str, .one), ("OFFSET", .int, .optional),
      ("OFFSET_END", .int, .optional), ("ORDER", .int, .one)],
    kind "TYPE_PARAMETER" [
      ("CODE", .str, .one), ("COLUMN_NUMBER", .int, .optional), ("LINE_NUMBER", .int, .optional),
      ("NAME", .str, .one), ("OFFSET", .int, .optional), ("OFFSET_END", .int, .optional),
      ("ORDER", .int, .one)],
    kind "TYPE_REF" [
      ("ARGUMENT_INDEX", .int, .one), ("ARGUMENT_LABEL", .str, .optional),
      ("ARGUMENT_NAME", .str, .optional), ("CODE", .str, .one),
      ("COLUMN_NUMBER", .int, .optional), ("DYNAMIC_TYPE_HINT_FULL_NAME", .str, .many),
      ("LINE_NUMBER", .int, .optional), ("OFFSET", .int, .optional),
      ("OFFSET_END", .int, .optional), ("ORDER", .int, .one), ("POSSIBLE_TYPES", .str, .many),
      ("TYPE_FULL_NAME", .str, .one)],
    kind "UNKNOWN" [
      ("ARGUMENT_INDEX", .int, .one), ("ARGUMENT_LABEL", .str, .optional),
      ("ARGUMENT_NAME", .str, .optional), ("CODE", .str, .one),
      ("COLUMN_NUMBER", .int, .optional), ("CONTAINED_REF", .str, .one),
      ("DYNAMIC_TYPE_HINT_FULL_NAME", .str, .many), ("LINE_NUMBER", .int, .optional),
      ("OFFSET", .int, .optional), ("OFFSET_END", .int, .optional), ("ORDER", .int, .one),
      ("PARSER_TYPE_NAME", .str, .one), ("POSSIBLE_TYPES", .str, .many),
      ("TYPE_FULL_NAME", .str, .one)]
  ]

/-- `EDGE_PROPERTIES`: the one property that edges of a kind may have. -/
def edgeProperties : Dict Text (Option Text) :=
  [
    (py "ALIAS_OF", none), (py "ARGUMENT", none), (py "AST", none), (py "BINDS", none),
    (py "BINDS_TO", none), (py "CALL", none), (py "CAPTURE", none), (py "CAPTURED_BY", none),
    (py "CATCH_BODY", none), (py "CDG", none), (py "CFG", none), (py "CONDITION", none),
    (py "CONTAINS", none), (py "DOMINATE", none), (py "DO_BODY", none), (py "EVAL_TYPE", none),
    (py "FALSE_BODY", none), (py "FINALLY_BODY", none), (py "FOR_BODY", none),
    (py "FOR_INIT", none), (py "FOR_UPDATE", none), (py "IMPORTS", none),
    (py "INHERITS_FROM", none), (py "IS_CALL_FOR_IMPORT", none), (py "JUMP_ARGUMENT", none),
    (py "PARAMETER_LINK", none), (py "POST_DOMINATE", none),
    (py "REACHING_DEF", some (py "VARIABLE")), (py "RECEIVER", none), (py "REF", none),
    (py "SOURCE_FILE", none), (py "TAGGED_BY", none), (py "TRUE_BODY", none),
    (py "TRY_BODY", none)
  ]

end Scanipy.Analysis.CpgIngest.RawV2
