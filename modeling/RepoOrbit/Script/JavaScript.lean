import RepoOrbit.Grammar.Language
import RepoOrbit.Script.Context

/-!
# The grammar of JavaScript

The rules of the language with markup (`JavaScript.rules`), its tokens, and the
tables that say which reading of an ambiguous phrase is meant. Rules whose name
begins with an underscore leave no node in the tree.

`JavaScript.spec` is the whole grammar.
-/

namespace RepoOrbit.Script

open RepoOrbit.Grammar

namespace JavaScript

open Rule

/-- An identifier or a word that is only reserved here and there. -/
def anyIdentifier : Rule := .choice (.ref "identifier") (.ref "_reserved_identifier")

/-- A word shown as an identifier although it may be more. -/
def looseIdentifier : Rule := as "identifier" (.ref "_reserved_identifier")

/-- A name or a destructuring pattern. -/
def bindingTarget : Rule := any [.ref "identifier", .ref "_destructuring_pattern"]

/-- The rules for modules. -/
def moduleRules : List (String × Rule) := [
  ("export_statement", any [
    all ["export",
      any [all ["*", .ref "_from_clause"],
        all [.ref "namespace_export", .ref "_from_clause"],
        all [.ref "export_clause", .ref "_from_clause"],
        .ref "export_clause"],
      .ref "_semicolon"],
    all [many (field "decorator" (.ref "decorator")), "export",
      any [field "declaration" (.ref "declaration"),
        all ["default",
          any [field "declaration" (.ref "declaration"),
            all [field "value" (.ref "expression"), .ref "_semicolon"]]]]]]),
  ("namespace_export", all ["*", "as", .ref "_module_export_name"]),
  ("export_clause", all ["\x7b", commas (.ref "export_specifier"), optional ",", "\x7d"]),
  ("export_specifier", all [field "name" (.ref "_module_export_name"),
    optional (all ["as", field "alias" (.ref "_module_export_name")])]),
  ("_module_export_name", any [.ref "identifier", .ref "string", "default"]),
  ("declaration", any [.ref "function_declaration", .ref "generator_function_declaration",
    .ref "class_declaration", .ref "lexical_declaration", .ref "variable_declaration",
    .ref "using_declaration"]),
  ("import", .text "import"),
  ("import_statement", all ["import",
    any [all [.ref "import_clause", .ref "_from_clause"], field "source" (.ref "string")],
    optional (.ref "import_attribute"), .ref "_semicolon"]),
  ("import_clause", any [.ref "namespace_import", .ref "named_imports",
    all [.ref "identifier",
      optional (all [",", any [.ref "namespace_import", .ref "named_imports"]])]]),
  ("_from_clause", all ["from", field "source" (.ref "string")]),
  ("namespace_import", all ["*", "as", .ref "identifier"]),
  ("named_imports", all ["\x7b", commas (.ref "import_specifier"), optional ",", "\x7d"]),
  ("import_specifier", any [field "name" (.ref "identifier"),
    all [field "name" (.ref "_module_export_name"), "as", field "alias" (.ref "identifier")]]),
  ("import_attribute", all ["with", .ref "object"])]

/-- The rules for statements. -/
def statementRules : List (String × Rule) := [
  ("statement", any [.ref "export_statement", .ref "import_statement", .ref "debugger_statement",
    .ref "expression_statement", .ref "declaration", .ref "statement_block", .ref "if_statement",
    .ref "switch_statement", .ref "for_statement", .ref "for_in_statement", .ref "while_statement",
    .ref "do_statement", .ref "try_statement", .ref "with_statement", .ref "break_statement",
    .ref "continue_statement", .ref "return_statement", .ref "throw_statement",
    .ref "empty_statement", .ref "labeled_statement"]),
  ("expression_statement", all [.ref "_expressions", .ref "_semicolon"]),
  ("variable_declaration", all ["var", commas1 (.ref "variable_declarator"), .ref "_semicolon"]),
  ("lexical_declaration", all [field "kind" (any ["let", "const"]), commas1 (.ref "variable_declarator"),
    .ref "_semicolon"]),
  ("using_declaration", all [field "kind" (any ["using", all ["await", "using"]]),
    commas1 (.ref "variable_declarator"), .ref "_semicolon"]),
  ("variable_declarator", all [field "name" bindingTarget, optional (.ref "_initializer")]),
  ("statement_block", rightward (all ["\x7b", many (.ref "statement"), "\x7d",
    optional (.ref "_automatic_semicolon")])),
  ("else_clause", all ["else", .ref "statement"]),
  ("if_statement", rightward (all ["if", field "condition" (.ref "parenthesized_expression"),
    field "consequence" (.ref "statement"), optional (field "alternative" (.ref "else_clause"))])),
  ("switch_statement", all ["switch", field "value" (.ref "parenthesized_expression"),
    field "body" (.ref "switch_body")]),
  ("for_statement", all ["for", "(",
    any [field "initializer" (any [.ref "lexical_declaration", .ref "variable_declaration"]),
      all [field "initializer" (.ref "_expressions"), ";"],
      field "initializer" (.ref "empty_statement")],
    field "condition" (any [all [.ref "_expressions", ";"], .ref "empty_statement"]),
    field "increment" (optional (.ref "_expressions")), ")", field "body" (.ref "statement")]),
  ("for_in_statement", all ["for", optional "await", .ref "_for_header", field "body" (.ref "statement")]),
  ("_for_header", all ["(",
    any [field "left" (any [.ref "_lhs_expression", .ref "parenthesized_expression"]),
      all [field "kind" "var", field "left" bindingTarget, optional (.ref "_initializer")],
      all [field "kind" (any ["let", "const"]), field "left" bindingTarget,
        optional (.ref "_automatic_semicolon")],
      all [field "kind" (any ["using", all ["await", "using"]]), field "left" bindingTarget]],
    field "operator" (any ["in", "of"]), field "right" (.ref "_expressions"), ")"]),
  ("while_statement", all ["while", field "condition" (.ref "parenthesized_expression"),
    field "body" (.ref "statement")]),
  ("do_statement", rightward (all ["do", field "body" (.ref "statement"), "while",
    field "condition" (.ref "parenthesized_expression"), optional (.ref "_semicolon")])),
  ("try_statement", all ["try", field "body" (.ref "statement_block"),
    optional (field "handler" (.ref "catch_clause")),
    optional (field "finalizer" (.ref "finally_clause"))]),
  ("with_statement", all ["with", field "object" (.ref "parenthesized_expression"),
    field "body" (.ref "statement")]),
  ("break_statement", all ["break", field "label" (optional (as "statement_identifier" (.ref "identifier"))),
    .ref "_semicolon"]),
  ("continue_statement", all ["continue",
    field "label" (optional (as "statement_identifier" (.ref "identifier"))), .ref "_semicolon"]),
  ("debugger_statement", all ["debugger", .ref "_semicolon"]),
  ("return_statement", all ["return", optional (.ref "_expressions"), .ref "_semicolon"]),
  ("throw_statement", all ["throw", .ref "_expressions", .ref "_semicolon"]),
  ("empty_statement", .text ";"),
  ("labeled_statement", .dynamic (-1) (all [field "label" (as "statement_identifier" anyIdentifier), ":",
    field "body" (.ref "statement")])),
  ("switch_body", all ["\x7b", many (any [.ref "switch_case", .ref "switch_default"]), "\x7d"]),
  ("switch_case", all ["case", field "value" (.ref "_expressions"), ":",
    field "body" (many (.ref "statement"))]),
  ("switch_default", all ["default", ":", field "body" (many (.ref "statement"))]),
  ("catch_clause", all ["catch", optional (all ["(", field "parameter" bindingTarget, ")"]),
    field "body" (.ref "statement_block")]),
  ("finally_clause", all ["finally", field "body" (.ref "statement_block")]),
  ("parenthesized_expression", all ["(", .ref "_expressions", ")"])]

/-- The rules for expressions and patterns. -/
def expressionRules : List (String × Rule) := [
  ("_expressions", any [.ref "expression", .ref "sequence_expression"]),
  ("expression", any [.ref "primary_expression", .ref "_jsx_element", .ref "assignment_expression",
    .ref "augmented_assignment_expression", .ref "await_expression", .ref "unary_expression",
    .ref "binary_expression", .ref "ternary_expression", .ref "update_expression",
    .ref "new_expression", .ref "yield_expression", .ref "arrow_function"]),
  ("primary_expression", any [.ref "subscript_expression", .ref "member_expression",
    .ref "parenthesized_expression", .ref "_identifier", looseIdentifier,
    .ref "this", .ref "super", .ref "number", .ref "string", .ref "template_string", .ref "regex",
    .ref "true", .ref "false", .ref "null", .ref "object", .ref "array", .ref "function_expression",
    .ref "generator_function", .ref "class", .ref "meta_property", .ref "call_expression"]),
  ("yield_expression", rightward (all ["yield",
    any [all ["*", .ref "expression"], optional (.ref "expression")]])),
  ("object", strong "object" (all ["\x7b",
    commas (optional (any [.ref "pair", .ref "spread_element", .ref "method_definition",
      as "shorthand_property_identifier" anyIdentifier])), "\x7d"])),
  ("object_pattern", strong "object" (all ["\x7b",
    commas (optional (any [.ref "pair_pattern", .ref "rest_pattern", .ref "object_assignment_pattern",
      as "shorthand_property_identifier_pattern" anyIdentifier])), "\x7d"])),
  ("assignment_pattern", all [field "left" (.ref "pattern"), "=", field "right" (.ref "expression")]),
  ("object_assignment_pattern", all [
    field "left" (any [as "shorthand_property_identifier_pattern" anyIdentifier,
      .ref "_destructuring_pattern"]), "=", field "right" (.ref "expression")]),
  ("array", all ["[", commas (optional (any [.ref "expression", .ref "spread_element"])), "]"]),
  ("array_pattern", all ["[", commas (optional (any [.ref "pattern", .ref "assignment_pattern"])), "]"]),
  ("class", strong "literal" (all [many (field "decorator" (.ref "decorator")), "class",
    field "name" (optional (.ref "identifier")), optional (.ref "class_heritage"),
    field "body" (.ref "class_body")])),
  ("class_declaration", strong "declare" (all [many (field "decorator" (.ref "decorator")), "class",
    field "name" (.ref "identifier"), optional (.ref "class_heritage"), field "body" (.ref "class_body"),
    optional (.ref "_automatic_semicolon")])),
  ("class_heritage", all ["extends", .ref "expression"]),
  ("function_expression", strong "literal" (all [optional "async", "function",
    field "name" (optional (.ref "identifier")), .ref "_call_signature",
    field "body" (.ref "statement_block")])),
  ("function_declaration", strongRight "declare" (all [optional "async", "function",
    field "name" (.ref "identifier"), .ref "_call_signature", field "body" (.ref "statement_block"),
    optional (.ref "_automatic_semicolon")])),
  ("generator_function", strong "literal" (all [optional "async", "function", "*",
    field "name" (optional (.ref "identifier")), .ref "_call_signature",
    field "body" (.ref "statement_block")])),
  ("generator_function_declaration", strongRight "declare" (all [optional "async", "function", "*",
    field "name" (.ref "identifier"), .ref "_call_signature", field "body" (.ref "statement_block"),
    optional (.ref "_automatic_semicolon")])),
  ("arrow_function", all [optional "async",
    any [field "parameter" (any [looseIdentifier, .ref "identifier"]), .ref "_call_signature"],
    "=>", field "body" (any [.ref "expression", .ref "statement_block"])]),
  ("_call_signature", field "parameters" (.ref "formal_parameters")),
  ("_formal_parameter", any [.ref "pattern", .ref "assignment_pattern"]),
  ("optional_chain", .text "?."),
  ("call_expression", any [
    strong "call" (all [field "function" (any [.ref "expression", .ref "import"]),
      field "arguments" (.ref "arguments")]),
    strong "template_call" (all [field "function" (any [.ref "primary_expression", .ref "new_expression"]),
      field "arguments" (.ref "template_string")]),
    strong "member" (all [field "function" (.ref "primary_expression"),
      field "optional_chain" (.ref "optional_chain"), field "arguments" (.ref "arguments")])]),
  ("new_expression", strongRight "new" (all ["new",
    field "constructor" (any [.ref "primary_expression", .ref "new_expression"]),
    field "arguments" (optional (.dynamic 1 (.ref "arguments")))])),
  ("await_expression", strong "unary_void" (all ["await", .ref "expression"])),
  ("member_expression", strong "member" (all [
    field "object" (any [.ref "expression", .ref "primary_expression", .ref "import"]),
    any [".", field "optional_chain" (.ref "optional_chain")],
    field "property" (any [.ref "private_property_identifier",
      .reserving "properties" (as "property_identifier" (.ref "identifier"))])])),
  ("subscript_expression", strongRight "member" (all [
    field "object" (any [.ref "expression", .ref "primary_expression"]),
    optional (field "optional_chain" (.ref "optional_chain")),
    "[", field "index" (.ref "_expressions"), "]"])),
  ("_lhs_expression", any [.ref "member_expression", .ref "subscript_expression", .ref "_identifier",
    looseIdentifier, .ref "_destructuring_pattern"]),
  ("assignment_expression", strongRight "assign" (all [
    field "left" (any [.ref "parenthesized_expression", .ref "_lhs_expression"]), "=",
    field "right" (.ref "expression")])),
  ("_augmented_assignment_lhs", any [.ref "member_expression", .ref "subscript_expression",
    looseIdentifier, .ref "identifier", .ref "parenthesized_expression"]),
  ("augmented_assignment_expression", strongRight "assign" (all [
    field "left" (.ref "_augmented_assignment_lhs"),
    field "operator" (any ["+=", "-=", "*=", "/=", "%=", "^=", "&=", "|=", ">>=", ">>>=", "<<=", "**=",
      "&&=", "||=", "??="]),
    field "right" (.ref "expression")])),
  ("_initializer", all ["=", field "value" (.ref "expression")]),
  ("_destructuring_pattern", any [.ref "object_pattern", .ref "array_pattern"]),
  ("spread_element", all ["...", .ref "expression"]),
  ("ternary_expression", strongRight "ternary" (all [field "condition" (.ref "expression"),
    .renamed "?" false (.ref "_ternary_qmark"), field "consequence" (.ref "expression"), ":",
    field "alternative" (.ref "expression")])),
  ("binary_expression", any (([
    ("&&", "logical_and"), ("||", "logical_or"), (">>", "binary_shift"), (">>>", "binary_shift"),
    ("<<", "binary_shift"), ("&", "bitwise_and"), ("^", "bitwise_xor"), ("|", "bitwise_or"),
    ("+", "binary_plus"), ("-", "binary_plus"), ("*", "binary_times"), ("/", "binary_times"),
    ("%", "binary_times"), ("<", "binary_relation"), ("<=", "binary_relation"),
    ("==", "binary_equality"), ("===", "binary_equality"), ("!=", "binary_equality"),
    ("!==", "binary_equality"), (">=", "binary_relation"), (">", "binary_relation"),
    ("??", "ternary"), ("instanceof", "binary_relation")] : List (String × String)).map
      (fun (op, rank) => strongLeft rank (all [field "left" (.ref "expression"), field "operator" op,
        field "right" (.ref "expression")])) ++
    [strongRight "binary_exp" (all [field "left" (.ref "expression"), field "operator" "**",
        field "right" (.ref "expression")]),
      strongLeft "binary_relation" (all [
        field "left" (any [.ref "expression", .ref "private_property_identifier"]),
        field "operator" "in", field "right" (.ref "expression")])])),
  ("unary_expression", strongLeft "unary_void" (all [
    field "operator" (any ["!", "~", "-", "+", "typeof", "void", "delete"]),
    field "argument" (.ref "expression")])),
  ("update_expression", leftward (any [
    all [field "argument" (.ref "expression"), field "operator" (any ["++", "--"])],
    all [field "operator" (any ["++", "--"]), field "argument" (.ref "expression")]])),
  ("sequence_expression", rightward (commas1 (.ref "expression"))),
  ("string", any [
    all ["\"", many (any [as "string_fragment" (.ref "unescaped_double_string_fragment"),
      .ref "escape_sequence"]), "\""],
    all ["'", many (any [as "string_fragment" (.ref "unescaped_single_string_fragment"),
      .ref "escape_sequence"]), "'"]]),
  ("template_string", all ["\x60", many (any [as "string_fragment" (.ref "_template_chars"),
    .ref "escape_sequence", .ref "template_substitution"]), "\x60"]),
  ("template_substitution", all ["$\x7b", .ref "_expressions", "\x7d"]),
  ("regex", all ["/", field "pattern" (.ref "regex_pattern"), .ref "regex_close",
    optional (field "flags" (.ref "regex_flags"))]),
  ("_identifier", any [.ref "undefined", .ref "identifier"]),
  ("meta_property", any [all ["new", ".", "target"], all ["import", ".", "meta"]]),
  ("this", .text "this"), ("super", .text "super"), ("true", .text "true"), ("false", .text "false"), ("null", .text "null"),
  ("undefined", .text "undefined"),
  ("arguments", all ["(", commas (optional (any [.ref "expression", .ref "spread_element"])), ")"]),
  ("decorator", all ["@", any [.ref "identifier",
    as "member_expression" (.ref "decorator_member_expression"),
    as "call_expression" (.ref "decorator_call_expression")]]),
  ("decorator_member_expression", strong "member" (all [
    field "object" (any [.ref "identifier", as "member_expression" (.ref "decorator_member_expression")]),
    ".", field "property" (as "property_identifier" (.ref "identifier"))])),
  ("decorator_call_expression", strong "call" (all [
    field "function" (any [.ref "identifier", as "member_expression" (.ref "decorator_member_expression")]),
    field "arguments" (.ref "arguments")])),
  ("class_body", all ["\x7b",
    many (any [all [field "member" (.ref "method_definition"), optional ";"],
      all [field "member" (.ref "field_definition"), .ref "_semicolon"],
      field "member" (.ref "class_static_block"), ";"]), "\x7d"]),
  ("field_definition", all [many (field "decorator" (.ref "decorator")), optional "static",
    field "property" (.ref "_property_name"), optional (.ref "_initializer")]),
  ("formal_parameters", all ["(", optional (all [commas1 (.ref "_formal_parameter"), optional ","]), ")"]),
  ("class_static_block", all ["static", optional (.ref "_automatic_semicolon"),
    field "body" (.ref "statement_block")]),
  ("pattern", .dynamic (-1) (any [.ref "_lhs_expression", .ref "rest_pattern"])),
  ("rest_pattern", rightward (all ["...", .ref "_lhs_expression"])),
  ("method_definition", all [many (field "decorator" (.ref "decorator")),
    optional (any ["static", .renamed "static get" false (.ref "static_get")]), optional "async",
    optional (any ["get", "set", "*"]), field "name" (.ref "_property_name"),
    field "parameters" (.ref "formal_parameters"), field "body" (.ref "statement_block")]),
  ("pair", all [field "key" (.ref "_property_name"), ":", field "value" (.ref "expression")]),
  ("pair_pattern", all [field "key" (.ref "_property_name"), ":",
    field "value" (any [.ref "pattern", .ref "assignment_pattern"])]),
  ("_property_name", .reserving "properties" (any [as "property_identifier" anyIdentifier,
    .ref "private_property_identifier", .ref "string", .ref "number", .ref "computed_property_name"])),
  ("computed_property_name", all ["[", .ref "expression", "]"]),
  ("_reserved_identifier", any ["get", "set", "async", "static", "export", "let"]),
  ("_semicolon", any [.ref "_automatic_semicolon", ";"])]

/-- The rules for markup in expressions. -/
def markupRules : List (String × Rule) := [
  ("jsx_element", all [field "open_tag" (.ref "jsx_opening_element"), many (.ref "_jsx_child"),
    field "close_tag" (.ref "jsx_closing_element")]),
  ("jsx_expression", all ["\x7b",
    optional (any [.ref "expression", .ref "sequence_expression", .ref "spread_element"]), "\x7d"]),
  ("_jsx_child", any [.ref "jsx_text", .ref "html_character_reference", .ref "_jsx_element",
    .ref "jsx_expression"]),
  ("jsx_opening_element", .dynamic (-1) (all ["<",
    optional (all [field "name" (.ref "_jsx_element_name"),
      many (field "attribute" (.ref "_jsx_attribute"))]), ">"])),
  ("_jsx_identifier", any [as "identifier" (.ref "jsx_identifier"), .ref "identifier"]),
  ("nested_identifier", strong "member" (all [
    field "object" (any [.ref "identifier", as "member_expression" (.ref "nested_identifier")]), ".",
    field "property" (as "property_identifier" (.ref "identifier"))])),
  ("jsx_namespace_name", all [.ref "_jsx_identifier", ":", .ref "_jsx_identifier"]),
  ("_jsx_element_name", any [.ref "_jsx_identifier", as "member_expression" (.ref "nested_identifier"),
    .ref "jsx_namespace_name"]),
  ("jsx_closing_element", all ["</", optional (field "name" (.ref "_jsx_element_name")), ">"]),
  ("jsx_self_closing_element", all ["<", field "name" (.ref "_jsx_element_name"),
    many (field "attribute" (.ref "_jsx_attribute")), "/>"]),
  ("_jsx_attribute", any [.ref "jsx_attribute", .ref "jsx_expression"]),
  ("_jsx_attribute_name", any [as "property_identifier" (.ref "_jsx_identifier"),
    .ref "jsx_namespace_name"]),
  ("jsx_attribute", all [.ref "_jsx_attribute_name", optional (all ["=", .ref "_jsx_attribute_value"])]),
  ("_jsx_string", any [
    all ["\"", many (any [as "string_fragment" (.ref "unescaped_double_jsx_string_fragment"),
      .ref "html_character_reference"]), "\""],
    all ["'", many (any [as "string_fragment" (.ref "unescaped_single_jsx_string_fragment"),
      .ref "html_character_reference"]), "'"]]),
  ("_jsx_attribute_value", any [as "string" (.ref "_jsx_string"), .ref "jsx_expression",
    .ref "_jsx_element"]),
  ("_jsx_element", any [.ref "jsx_element", .ref "jsx_self_closing_element"])]

/-- All rules, the whole text first. -/
def rules : List (String × Rule) :=
  ("program", all [optional (.ref "hash_bang_line"), many (.ref "statement")])
    :: moduleRules ++ statementRules ++ expressionRules ++ markupRules

/-- The tokens that readers know. -/
def tokens : List TokenRule := [
  { name := "hash_bang_line", read := hashBang },
  { name := "identifier", read := name },
  { name := "private_property_identifier", read := privateName },
  { name := "number", read := number },
  { name := "comment", read := comment },
  { name := "unescaped_double_string_fragment", immediate := true, rank := 1, read := stringText '"' },
  { name := "unescaped_single_string_fragment", immediate := true, rank := 1, read := stringText '\'' },
  { name := "escape_sequence", immediate := true, read := escape },
  { name := "regex_pattern", immediate := true, rank := -1, read := pattern },
  { name := "regex_close", immediate := true, rank := 1, read := slash },
  { name := "regex_flags", immediate := true, read := patternFlags },
  { name := "html_character_reference", read := characterReference },
  { name := "jsx_identifier", read := dashedName },
  { name := "unescaped_double_jsx_string_fragment", immediate := true, rank := 1, read := markupText '"' },
  { name := "unescaped_single_jsx_string_fragment", immediate := true, rank := 1, read := markupText '\'' },
  { name := "static_get", read := staticGet }]

/-- The tables of relative strength. -/
def orderings : List (List OrderEntry) := [
  [.rank "member", .rank "template_call", .rank "call", .rule "update_expression", .rank "unary_void",
    .rank "binary_exp", .rank "binary_times", .rank "binary_plus", .rank "binary_shift",
    .rank "binary_compare", .rank "binary_relation", .rank "binary_equality", .rank "bitwise_and",
    .rank "bitwise_xor", .rank "bitwise_or", .rank "logical_and", .rank "logical_or", .rank "ternary",
    .rule "sequence_expression", .rule "arrow_function"],
  [.rank "assign", .rule "primary_expression"],
  [.rank "member", .rank "template_call", .rank "new", .rank "call", .rule "expression"],
  [.rank "declare", .rank "literal"],
  [.rule "primary_expression", .rule "statement_block", .rank "object"],
  [.rule "meta_property", .rule "import"],
  [.rule "import_statement", .rule "import"],
  [.rule "export_statement", .rule "primary_expression"],
  [.rule "lexical_declaration", .rule "primary_expression"]]

/-- Words that are no identifiers, unless they name a property. -/
def reservedWords : List String := [
  "break", "case", "catch", "class", "const", "continue", "debugger", "default", "delete", "do", "else",
  "export", "extends", "false", "finally", "for", "function", "if", "import", "in", "instanceof", "new",
  "null", "return", "super", "switch", "this", "throw", "true", "try", "typeof", "var", "void", "while",
  "with"]

/-- Tokens that only the context decides, and those it asks about. -/
def externals : List String := [
  "_automatic_semicolon", "_template_chars", "_ternary_qmark", "html_comment", "||", "escape_sequence",
  "regex_pattern", "jsx_text"]

/-- Rules that stand for their body wherever they are named. -/
def inlined : List String := [
  "_call_signature", "_formal_parameter", "_expressions", "_semicolon", "_identifier",
  "_reserved_identifier", "_jsx_attribute", "_jsx_element_name", "_jsx_child", "_jsx_element",
  "_jsx_attribute_name", "_jsx_attribute_value", "_jsx_identifier", "_lhs_expression"]

/-- The grammar of JavaScript. -/
def spec : Spec where
  rules := rules
  tokens := tokens
  externals := externals
  extras := ["comment", "html_comment"]
  inlined := inlined
  gathering := ["statement", "declaration", "expression", "primary_expression", "pattern"]
  word := "identifier"
  orderings := orderings
  reserved := [("global", reservedWords), ("properties", [])]
  isSpace := isSpace
  scan := scan

end JavaScript

end RepoOrbit.Script
