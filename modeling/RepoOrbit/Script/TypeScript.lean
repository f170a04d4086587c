import RepoOrbit.Script.JavaScript

/-!
# The grammar of TypeScript

TypeScript takes most rules from JavaScript without markup, gives some of them a
new body and adds its types. `TypeScript.rules` lists the rules, the new ones in
place of those they replace; `TypeScript.spec` is the whole grammar.
-/

namespace RepoOrbit.Script

open RepoOrbit.Grammar

namespace TypeScript

open Rule

open JavaScript (looseIdentifier bindingTarget)

/-- The type written after a colon, if there is one. -/
def optionalType : Rule := field "type" (optional (.ref "type_annotation"))

/-- The type parameters, if there are any. -/
def optionalTypeParameters : Rule := field "type_parameters" (optional (.ref "type_parameters"))

/-- The type arguments, if there are any. -/
def optionalTypeArguments : Rule := field "type_arguments" (optional (.ref "type_arguments"))

/-- A body with the rule of the same name in JavaScript as one more way. -/
def extended (name : String) (more : List Rule) : Rule :=
  match JavaScript.rules.lookup name with
  | none => any more
  | some r => any (r :: more)

/-- The JavaScript body of a rule. -/
def given (name : String) : Rule := (JavaScript.rules.lookup name).getD .empty

/-- The rules for modules and declarations. -/
def declarationRules : List (String × Rule) := [
  ("export_specifier", all [optional (any ["type", "typeof"]), given "export_specifier"]),
  ("_module_export_name", any [.ref "identifier", .ref "string"]),
  ("_import_identifier", any [.ref "identifier", as "identifier" "type"]),
  ("import_specifier", all [optional (any ["type", "typeof"]),
    any [field "name" (.ref "_import_identifier"),
      all [field "name" (any [.ref "_module_export_name", as "identifier" "type"]), "as",
        field "alias" (.ref "_import_identifier")]]]),
  ("import_clause", any [.ref "namespace_import", .ref "named_imports",
    all [.ref "_import_identifier",
      optional (all [",", any [.ref "namespace_import", .ref "named_imports"]])]]),
  ("import_statement", all ["import", optional (any ["type", "typeof"]),
    any [all [.ref "import_clause", .ref "_from_clause"], .ref "import_require_clause",
      field "source" (.ref "string")],
    optional (.ref "import_attribute"), .ref "_semicolon"]),
  ("export_statement", extended "export_statement" [
    all ["export", "type", .ref "export_clause", optional (.ref "_from_clause"), .ref "_semicolon"],
    all ["export", "import", .ref "import_alias"],
    all ["export", "=", .ref "expression", .ref "_semicolon"],
    all ["export", "as", "namespace", .ref "identifier", .ref "_semicolon"]]),
  ("import_require_clause", all [.ref "identifier", "=", "require", "(", field "source" (.ref "string"), ")"]),
  ("variable_declarator", any [
    all [field "name" bindingTarget, optionalType, optional (.ref "_initializer")],
    strong "declare" (all [field "name" (.ref "identifier"), "!", field "type" (.ref "type_annotation")])]),
  ("function_signature", all [optional "async", "function", field "name" (.ref "identifier"),
    .ref "_call_signature", any [.ref "_semicolon", .ref "_function_signature_automatic_semicolon"]]),
  ("declaration", any [.ref "function_declaration", .ref "generator_function_declaration",
    .ref "class_declaration", .ref "lexical_declaration", .ref "variable_declaration",
    .ref "function_signature", .ref "abstract_class_declaration", .ref "module",
    strong "declare" (.ref "internal_module"), .ref "type_alias_declaration", .ref "enum_declaration",
    .ref "interface_declaration", .ref "import_alias", .ref "ambient_declaration"]),
  ("ambient_declaration", all ["declare", any [.ref "declaration",
    all ["global", .ref "statement_block"],
    all ["module", ".", as "property_identifier" (.ref "identifier"), ":", .ref "type", .ref "_semicolon"]]]),
  ("abstract_class_declaration", strong "declare" (all [many (field "decorator" (.ref "decorator")),
    "abstract", "class", field "name" (.ref "_type_identifier"), optionalTypeParameters,
    optional (.ref "class_heritage"), field "body" (.ref "class_body")])),
  ("class_declaration", strongLeft "declare" (all [many (field "decorator" (.ref "decorator")), "class",
    field "name" (.ref "_type_identifier"), optionalTypeParameters, optional (.ref "class_heritage"),
    field "body" (.ref "class_body"), optional (.ref "_automatic_semicolon")])),
  ("class", strong "literal" (all [many (field "decorator" (.ref "decorator")), "class",
    field "name" (optional (.ref "_type_identifier")), optionalTypeParameters,
    optional (.ref "class_heritage"), field "body" (.ref "class_body")])),
  ("class_heritage", any [all [.ref "extends_clause", optional (.ref "implements_clause")],
    .ref "implements_clause"]),
  ("extends_clause", all ["extends", commas1 (.ref "_extends_clause_single")]),
  ("_extends_clause_single", strong "extends" (all [field "value" (.ref "expression"),
    optionalTypeArguments])),
  ("implements_clause", all ["implements", commas1 (.ref "type")]),
  ("module", all ["module", .ref "_module"]),
  ("internal_module", all ["namespace", .ref "_module"]),
  ("_module", rightward (all [
    field "name" (any [.ref "string", .ref "identifier", .ref "nested_identifier"]),
    field "body" (optional (.ref "statement_block"))])),
  ("import_alias", all ["import", .ref "identifier", "=",
    any [.ref "identifier", .ref "nested_identifier"], .ref "_semicolon"]),
  ("interface_declaration", all ["interface", field "name" (.ref "_type_identifier"),
    optionalTypeParameters, optional (.ref "extends_type_clause"),
    field "body" (as "interface_body" (.ref "object_type"))]),
  ("extends_type_clause", all ["extends", commas1 (field "type"
    (any [.ref "_type_identifier", .ref "nested_type_identifier", .ref "generic_type"]))]),
  ("enum_declaration", all [optional "const", "enum", field "name" (.ref "identifier"),
    field "body" (.ref "enum_body")]),
  ("enum_body", all ["\x7b", optional (all [
    commas1 (any [field "name" (.ref "_property_name"), .ref "enum_assignment"]), optional ","]), "\x7d"]),
  ("enum_assignment", all [field "name" (.ref "_property_name"), .ref "_initializer"]),
  ("type_alias_declaration", all ["type", field "name" (.ref "_type_identifier"), optionalTypeParameters,
    "=", field "value" (.ref "type"), .ref "_semicolon"])]

/-- The rules for members of classes and for parameters. -/
def memberRules : List (String × Rule) := [
  ("public_field_definition", all [many (field "decorator" (.ref "decorator")),
    optional (any [all ["declare", optional (.ref "accessibility_modifier")],
      all [.ref "accessibility_modifier", optional "declare"]]),
    any [all [optional "static", optional (.ref "override_modifier"), optional "readonly"],
      all [optional "abstract", optional "readonly"], all [optional "readonly", optional "abstract"],
      optional "accessor"],
    field "name" (.ref "_property_name"), optional (any ["?", "!"]), optionalType,
    optional (.ref "_initializer")]),
  ("method_signature", all [optional (.ref "accessibility_modifier"), optional "static",
    optional (.ref "override_modifier"), optional "readonly", optional "async",
    optional (any ["get", "set", "*"]), field "name" (.ref "_property_name"), optional "?",
    .ref "_call_signature"]),
  ("abstract_method_signature", all [optional (.ref "accessibility_modifier"), "abstract",
    optional (.ref "override_modifier"), optional (any ["get", "set", "*"]),
    field "name" (.ref "_property_name"), optional "?", .ref "_call_signature"]),
  ("method_definition", leftward (all [optional (.ref "accessibility_modifier"), optional "static",
    optional (.ref "override_modifier"), optional "readonly", optional "async",
    optional (any ["get", "set", "*"]), field "name" (.ref "_property_name"), optional "?",
    .ref "_call_signature", field "body" (.ref "statement_block")])),
  ("class_body", all ["\x7b",
    many (any [
      all [many (field "decorator" (.ref "decorator")), .ref "method_definition",
        optional (.ref "_semicolon")],
      all [.ref "method_signature", any [.ref "_function_signature_automatic_semicolon", ","]],
      .ref "class_static_block",
      all [any [.ref "abstract_method_signature", .ref "index_signature", .ref "method_signature",
        .ref "public_field_definition"], any [.ref "_semicolon", ","]],
      ";"]), "\x7d"]),
  ("decorator", all ["@", any [.ref "identifier",
    as "member_expression" (.ref "decorator_member_expression"),
    as "call_expression" (.ref "decorator_call_expression"),
    as "parenthesized_expression" (.ref "decorator_parenthesized_expression")]]),
  ("decorator_call_expression", strong "call" (all [
    field "function" (any [.ref "identifier", as "member_expression" (.ref "decorator_member_expression")]),
    optional (field "type_arguments" (.ref "type_arguments")), field "arguments" (.ref "arguments")])),
  ("decorator_parenthesized_expression", all ["(", any [.ref "identifier",
    as "member_expression" (.ref "decorator_member_expression"),
    as "call_expression" (.ref "decorator_call_expression")], ")"]),
  ("accessibility_modifier", any ["public", "private", "protected"]),
  ("override_modifier", .text "override"),
  ("_formal_parameter", any [.ref "required_parameter", .ref "optional_parameter"]),
  ("required_parameter", all [.ref "_parameter_name", optionalType, optional (.ref "_initializer")]),
  ("optional_parameter", all [.ref "_parameter_name", "?", optionalType, optional (.ref "_initializer")]),
  ("_parameter_name", all [many (field "decorator" (.ref "decorator")),
    optional (.ref "accessibility_modifier"), optional (.ref "override_modifier"), optional "readonly",
    field "pattern" (any [.ref "pattern", .ref "this"])]),
  ("_call_signature", all [optionalTypeParameters, field "parameters" (.ref "formal_parameters"),
    field "return_type" (optional (any [.ref "type_annotation", .ref "asserts_annotation",
      .ref "type_predicate_annotation"]))]),
  ("catch_clause", all ["catch",
    optional (all ["(", field "parameter" bindingTarget,
      optional (field "type" (.ref "type_annotation")), ")"]),
    field "body" (.ref "statement_block")])]

/-- The rules for expressions that differ. -/
def expressionRules : List (String × Rule) := [
  ("expression", any [.ref "as_expression", .ref "satisfies_expression", .ref "instantiation_expression",
    .ref "internal_module", .ref "type_assertion", .ref "primary_expression",
    .ref "assignment_expression", .ref "augmented_assignment_expression", .ref "await_expression",
    .ref "unary_expression", .ref "binary_expression", .ref "ternary_expression",
    .ref "update_expression", .ref "new_expression", .ref "yield_expression", .ref "arrow_function"]),
  ("primary_expression", extended "primary_expression" [.ref "non_null_expression"]),
  ("call_expression", any [
    strong "call" (all [field "function" (any [.ref "expression", .ref "import"]),
      optionalTypeArguments, field "arguments" (.ref "arguments")]),
    strong "template_call" (all [field "function" (any [.ref "primary_expression", .ref "new_expression"]),
      field "arguments" (.ref "template_string")]),
    strong "member" (all [field "function" (.ref "primary_expression"), "?.",
      optionalTypeArguments, field "arguments" (.ref "arguments")])]),
  ("new_expression", strongRight "new" (all ["new", field "constructor" (.ref "primary_expression"),
    optionalTypeArguments, field "arguments" (optional (.ref "arguments"))])),
  ("assignment_expression", strongRight "assign" (all [optional "using",
    field "left" (any [.ref "parenthesized_expression", .ref "_lhs_expression"]), "=",
    field "right" (.ref "expression")])),
  ("_augmented_assignment_lhs", extended "_augmented_assignment_lhs" [.ref "non_null_expression"]),
  ("_lhs_expression", extended "_lhs_expression" [.ref "non_null_expression"]),
  ("non_null_expression", strongLeft "unary" (all [.ref "expression", "!"])),
  ("parenthesized_expression", all ["(",
    any [all [.ref "expression", optionalType], .ref "sequence_expression"], ")"]),
  ("type_assertion", strongLeft "unary" (all [.ref "type_arguments", .ref "expression"])),
  ("as_expression", strongLeft "binary" (all [.ref "expression", "as", any ["const", .ref "type"]])),
  ("satisfies_expression", strongLeft "binary" (all [.ref "expression", "satisfies", .ref "type"])),
  ("instantiation_expression", strong "instantiation" (all [.ref "expression",
    field "type_arguments" (.ref "type_arguments")])),
  ("_reserved_identifier", any ["declare", "namespace", "type", "public", "private", "protected",
    "override", "readonly", "module", "any", "number", "boolean", "string", "symbol", "export", "object",
    "new", "get", "set", "async", "static", "let"])]

/-- What a type query may start from. -/
def queryBase : List Rule := [
  .ref "identifier", .ref "this", as "subscript_expression" (.ref "_type_query_subscript_expression"),
  as "member_expression" (.ref "_type_query_member_expression"),
  as "call_expression" (.ref "_type_query_call_expression")]

/-- What a type query may call. -/
def queryFunction : Rule := any [
  .ref "import", .ref "identifier", as "member_expression" (.ref "_type_query_member_expression"),
  as "subscript_expression" (.ref "_type_query_subscript_expression")]

/-- The name of a member. -/
def memberName : Rule :=
  any [.ref "private_property_identifier", as "property_identifier" (.ref "identifier")]

/-- The rules for types. -/
def typeRules : List (String × Rule) := [
  ("nested_type_identifier", strong "member" (all [
    field "module" (any [.ref "identifier", .ref "nested_identifier"]), ".",
    field "name" (.ref "_type_identifier")])),
  ("omitting_type_annotation", all ["-?:", .ref "type"]),
  ("adding_type_annotation", all ["+?:", .ref "type"]),
  ("opting_type_annotation", all ["?:", .ref "type"]),
  ("type_annotation", all [":", .ref "type"]),
  ("_type_query_member_expression_in_type_annotation", all [
    field "object" (any [.ref "import",
      as "member_expression" (.ref "_type_query_member_expression_in_type_annotation"),
      as "call_expression" (.ref "_type_query_call_expression_in_type_annotation")]),
    ".", field "property" memberName]),
  ("_type_query_call_expression_in_type_annotation", all [
    field "function" (any [.ref "import",
      as "member_expression" (.ref "_type_query_member_expression_in_type_annotation")]),
    field "arguments" (.ref "arguments")]),
  ("asserts", all ["asserts", any [.ref "type_predicate", .ref "identifier", .ref "this"]]),
  ("asserts_annotation", all [":", .ref "asserts"]),
  ("type", any [.ref "primary_type", .ref "function_type", .ref "readonly_type", .ref "constructor_type",
    .ref "infer_type",
    .ranked (.number (-1)) none
      (as "member_expression" (.ref "_type_query_member_expression_in_type_annotation")),
    .ranked (.number (-1)) none
      (as "call_expression" (.ref "_type_query_call_expression_in_type_annotation"))]),
  ("tuple_parameter", all [field "name" (any [.ref "identifier", .ref "rest_pattern"]),
    field "type" (.ref "type_annotation")]),
  ("optional_tuple_parameter", all [field "name" (.ref "identifier"), "?",
    field "type" (.ref "type_annotation")]),
  ("optional_type", all [.ref "type", "?"]),
  ("rest_type", all ["...", .ref "type"]),
  ("_tuple_type_member", any [as "required_parameter" (.ref "tuple_parameter"),
    as "optional_parameter" (.ref "optional_tuple_parameter"), .ref "optional_type", .ref "rest_type",
    .ref "type"]),
  ("constructor_type", leftward (all [optional "abstract", "new", optionalTypeParameters,
    field "parameters" (.ref "formal_parameters"), "=>", field "type" (.ref "type")])),
  ("primary_type", any [.ref "parenthesized_type", .ref "predefined_type", .ref "_type_identifier",
    .ref "nested_type_identifier", .ref "generic_type", .ref "object_type", .ref "array_type",
    .ref "tuple_type", .ref "flow_maybe_type", .ref "type_query", .ref "index_type_query",
    as "this_type" (.ref "this"), .ref "existential_type", .ref "literal_type", .ref "lookup_type",
    .ref "conditional_type", .ref "template_literal_type", .ref "intersection_type", .ref "union_type",
    "const"]),
  ("template_type", all ["$\x7b", any [.ref "primary_type", .ref "infer_type"], "\x7d"]),
  ("template_literal_type", all ["\x60",
    many (any [as "string_fragment" (.ref "_template_chars"), .ref "template_type"]), "\x60"]),
  ("infer_type", rightward (all ["infer", .ref "_type_identifier",
    optional (all ["extends", .ref "type"])])),
  ("conditional_type", rightward (all [field "left" (.ref "type"), "extends", field "right" (.ref "type"),
    "?", field "consequence" (.ref "type"), ":", field "alternative" (.ref "type")])),
  ("generic_type", strong "call" (all [
    field "name" (any [.ref "_type_identifier", .ref "nested_type_identifier"]),
    field "type_arguments" (.ref "type_arguments")])),
  ("type_predicate", all [
    field "name" (any [.ref "identifier", .ref "this", as "identifier" (.ref "predefined_type")]), "is",
    field "type" (.ref "type")]),
  ("type_predicate_annotation", all [":", .ref "type_predicate"]),
  ("_type_query_member_expression", all [field "object" (any queryBase), any [".", "?."],
    field "property" memberName]),
  ("_type_query_subscript_expression", all [field "object" (any queryBase), optional "?.", "[",
    field "index" (any [.ref "predefined_type", .ref "string", .ref "number"]), "]"]),
  ("_type_query_call_expression", all [field "function" queryFunction, field "arguments" (.ref "arguments")]),
  ("_type_query_instantiation_expression", all [field "function" queryFunction,
    field "type_arguments" (.ref "type_arguments")]),
  ("type_query", rightward (all ["typeof", any [
    as "subscript_expression" (.ref "_type_query_subscript_expression"),
    as "member_expression" (.ref "_type_query_member_expression"),
    as "call_expression" (.ref "_type_query_call_expression"),
    as "instantiation_expression" (.ref "_type_query_instantiation_expression"),
    .ref "identifier", .ref "this"]])),
  ("index_type_query", all ["keyof", .ref "primary_type"]),
  ("lookup_type", all [.ref "primary_type", "[", .ref "type", "]"]),
  ("mapped_type_clause", all [field "name" (.ref "_type_identifier"), "in", field "type" (.ref "type"),
    optional (all ["as", field "alias" (.ref "type")])]),
  ("literal_type", any [as "unary_expression" (.ref "_number"), .ref "number", .ref "string", .ref "true",
    .ref "false", .ref "null", .ref "undefined"]),
  ("_number", .ranked (.number 1) (some .left) (all [field "operator" (any ["-", "+"]),
    field "argument" (.ref "number")])),
  ("existential_type", .text "*"),
  ("flow_maybe_type", rightward (all ["?", .ref "primary_type"])),
  ("parenthesized_type", all ["(", .ref "type", ")"]),
  ("predefined_type", any ["any", "number", "boolean", "string", "symbol",
    .renamed "unique symbol" false (all ["unique", "symbol"]), "void", "unknown", "never", "object"]),
  ("type_arguments", all ["<", commas1 (.ref "type"), optional ",", ">"]),
  ("object_type", all [any ["\x7b", "\x7b|"],
    optional (all [optional (any [",", ";"]),
      separated1 (any [",", .ref "_semicolon"])
        (any [.ref "export_statement", .ref "property_signature", .ref "call_signature",
          .ref "construct_signature", .ref "index_signature", .ref "method_signature"]),
      optional (any [",", .ref "_semicolon"])]),
    any ["\x7d", "|\x7d"]]),
  ("call_signature", .ref "_call_signature"),
  ("property_signature", all [optional (.ref "accessibility_modifier"), optional "static",
    optional (.ref "override_modifier"), optional "readonly", field "name" (.ref "_property_name"),
    optional "?", optionalType]),
  ("type_parameters", all ["<", commas1 (.ref "type_parameter"), optional ",", ">"]),
  ("type_parameter", all [optional "const", field "name" (.ref "_type_identifier"),
    field "constraint" (optional (.ref "constraint")), field "value" (optional (.ref "default_type"))]),
  ("default_type", all ["=", .ref "type"]),
  ("constraint", all [any ["extends", ":"], .ref "type"]),
  ("construct_signature", all [optional "abstract", "new", optionalTypeParameters,
    field "parameters" (.ref "formal_parameters"), optionalType]),
  ("index_signature", all [
    optional (all [field "sign" (optional (any ["-", "+"])), "readonly"]), "[",
    any [all [field "name" (any [.ref "identifier", looseIdentifier]), ":",
      field "index_type" (.ref "type")], .ref "mapped_type_clause"],
    "]",
    field "type" (any [.ref "type_annotation", .ref "omitting_type_annotation",
      .ref "adding_type_annotation", .ref "opting_type_annotation"])]),
  ("array_type", all [.ref "primary_type", "[", "]"]),
  ("tuple_type", all ["[", commas (.ref "_tuple_type_member"), optional ",", "]"]),
  ("readonly_type", all ["readonly", .ref "type"]),
  ("union_type", leftward (all [optional (.ref "type"), "|", .ref "type"])),
  ("intersection_type", leftward (all [optional (.ref "type"), "&", .ref "type"])),
  ("function_type", leftward (all [optionalTypeParameters, field "parameters" (.ref "formal_parameters"),
    "=>", field "return_type" (any [.ref "type", .ref "asserts", .ref "type_predicate"])])),
  ("_type_identifier", as "type_identifier" (.ref "identifier"))]

/-- JavaScript rules with no part in TypeScript. -/
def dropped : List String := [
  "using_declaration", "field_definition", "jsx_element", "jsx_expression", "_jsx_child",
  "jsx_opening_element", "_jsx_identifier", "jsx_namespace_name", "_jsx_element_name",
  "jsx_closing_element", "jsx_self_closing_element", "_jsx_attribute", "_jsx_attribute_name",
  "jsx_attribute", "_jsx_string", "_jsx_attribute_value", "_jsx_element"]

/-- The loop header: as in JavaScript, without resource declarations. -/
def headerRules : List (String × Rule) := [
  ("_for_header", all ["(",
    any [field "left" (any [.ref "_lhs_expression", .ref "parenthesized_expression"]),
      all [field "kind" "var", field "left" bindingTarget, optional (.ref "_initializer")],
      all [field "kind" (any ["let", "const"]), field "left" bindingTarget,
        optional (.ref "_automatic_semicolon")]],
    field "operator" (any ["in", "of"]), field "right" (.ref "_expressions"), ")"])]

/-- The rules that are new or have a new body. -/
def ownRules : List (String × Rule) :=
  declarationRules ++ memberRules ++ expressionRules ++ typeRules ++ headerRules

/-- All rules, the whole text first. -/
def rules : List (String × Rule) :=
  let kept := JavaScript.rules.filter fun (n, _) => !dropped.contains n
  let changed := kept.map fun (n, r) => (n, (ownRules.lookup n).getD r)
  changed ++ ownRules.filter fun (n, _) => (kept.lookup n).isNone

/-- Tokens that only the context decides, and those it asks about. -/
def externals : List String := JavaScript.externals ++ ["_function_signature_automatic_semicolon"]

/-- The tables of relative strength. -/
def orderings : List (List OrderEntry) := JavaScript.orderings ++ ([
  [.rank "call", .rank "instantiation", .rank "unary", .rank "binary", .rule "await_expression",
    .rule "arrow_function"],
  [.rank "extends", .rank "instantiation"],
  [.rule "intersection_type", .rule "union_type", .rule "conditional_type", .rule "function_type",
    .rank "binary", .rule "type_predicate", .rule "readonly_type"],
  [.rule "mapped_type_clause", .rule "primary_expression"],
  [.rule "accessibility_modifier", .rule "primary_expression"],
  [.rank "unary_void", .rule "expression"],
  [.rule "extends_clause", .rule "primary_expression"],
  [.rank "unary", .rank "assign"],
  [.rank "declare", .rule "expression"],
  [.rule "predefined_type", .rule "unary_expression"],
  [.rule "type", .rule "flow_maybe_type"],
  [.rule "tuple_type", .rule "array_type", .rule "pattern", .rule "type"],
  [.rule "readonly_type", .rule "pattern"],
  [.rule "readonly_type", .rule "primary_expression"],
  [.rule "type_query", .rule "subscript_expression", .rule "expression"],
  [.rule "type_query", .rule "_type_query_subscript_expression"],
  [.rule "nested_type_identifier", .rule "generic_type", .rule "primary_type", .rule "lookup_type",
    .rule "index_type_query", .rule "type"],
  [.rule "as_expression", .rule "satisfies_expression", .rule "primary_type"],
  [.rule "_type_query_member_expression", .rule "member_expression"],
  [.rule "member_expression", .rule "_type_query_member_expression_in_type_annotation"],
  [.rule "_type_query_member_expression", .rule "primary_expression"],
  [.rule "_type_query_subscript_expression", .rule "subscript_expression"],
  [.rule "_type_query_subscript_expression", .rule "primary_expression"],
  [.rule "_type_query_call_expression", .rule "primary_expression"],
  [.rule "_type_query_instantiation_expression", .rule "primary_expression"],
  [.rule "type_query", .rule "primary_expression"],
  [.rule "override_modifier", .rule "primary_expression"],
  [.rule "decorator_call_expression", .rule "decorator"],
  [.rule "literal_type", .rule "pattern"],
  [.rule "predefined_type", .rule "pattern"],
  [.rule "call_expression", .rule "_type_query_call_expression"],
  [.rule "call_expression", .rule "_type_query_call_expression_in_type_annotation"],
  [.rule "new_expression", .rule "primary_expression"],
  [.rule "meta_property", .rule "primary_expression"],
  [.rule "construct_signature", .rule "_property_name"]] : List (List OrderEntry))

/-- The tokens of JavaScript that TypeScript does not have. -/
def foreignTokens : List String :=
  ["html_character_reference", "jsx_identifier", "unescaped_double_jsx_string_fragment",
    "unescaped_single_jsx_string_fragment", "static_get"]

/-- The grammar of TypeScript. No word is reserved: one that no keyword fits
is an identifier. -/
def spec : Spec where
  rules := rules
  tokens := JavaScript.tokens.filter fun t => !foreignTokens.contains t.name
  externals := externals
  extras := ["comment", "html_comment"]
  inlined := (JavaScript.inlined.filter fun n => n != "_formal_parameter" && n != "_call_signature")
    ++ ["_type_identifier"]
  gathering := JavaScript.spec.gathering ++ ["type", "primary_type"]
  word := "identifier"
  orderings := orderings
  reserved := []
  isSpace := isSpace
  scan := scan

end TypeScript

end RepoOrbit.Script
