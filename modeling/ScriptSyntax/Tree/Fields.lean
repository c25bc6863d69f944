/-
  ScriptSyntax/Tree/Fields.lean
  =============================
  The fields of a node by name, and its children.

  One table says what each payload holds and in which order.  Children are the
  nodes among the fields, the nodes of lists taken one by one, after those of
  the decorators and the modifiers.
-/
import ScriptSyntax.Tree.Node

namespace ScriptSyntax

/-! ## 1. Fields -/

/-- The contents of a field. -/
inductive Field where
  | node (id : NodeId)
  | array (nodes : NodeArray)
  | kind (kind : Kind)
  | flag (value : Bool)
  deriving DecidableEq, Repr

/-- A field that holds a node, if it holds anything. -/
def optionalNode (label : String) (id : Option NodeId) : List (String × Field) :=
  (id.map fun i => (label, .node i)).toList

/-- A field that holds a list of nodes, if it holds anything. -/
def optionalArray (label : String) (nodes : Option NodeArray) : List (String × Field) :=
  (nodes.map fun a => (label, .array a)).toList

namespace Payload

/-- The fields of functions and what is like them. -/
def functionFields (f : FunctionShape) : List (String × Field) :=
  optionalNode "asterisk_token" f.asterisk ++ optionalNode "name" f.name
    ++ optionalNode "question_token" f.questionMark
    ++ optionalArray "type_parameters" f.typeParameters ++ [("parameters", .array f.parameters)]
    ++ optionalNode "ty" f.type ++ optionalNode "equals_greater_than_token" f.arrow
    ++ optionalNode "body" f.body

/-- The fields of variables and what is like them. -/
def variableFields (v : VariableShape) : List (String × Field) :=
  optionalNode "property_name" v.propertyName ++ optionalNode "dot_dot_dot_token" v.dots
    ++ [("name", .node v.name)] ++ optionalNode "question_token" v.questionMark
    ++ optionalNode "equals_token" v.equalsSign ++ optionalNode "ty" v.type
    ++ optionalNode "initializer" v.initializer

/-- The fields of a payload in the order of the source, absent ones left out. -/
def fields : Payload → List (String × Field)
  | token => []
  | identifier _ _ => []
  | literal _ _ => []
  | qualifiedName left right => [("left", .node left), ("right", .node right)]
  | typeParameter name constraint default =>
    ("name", .node name) :: optionalNode "constraint" constraint ++ optionalNode "default" default
  | functionLike f => functionFields f
  | signature s =>
    optionalArray "type_parameters" s.typeParameters ++ [("parameters", .array s.parameters)]
      ++ optionalNode "ty" s.type
  | variableLike v => variableFields v
  | classLike c =>
    optionalNode "name" c.name ++ optionalArray "type_parameters" c.typeParameters
      ++ optionalArray "heritage_clauses" c.heritage ++ [("members", .array c.members)]
  | expression inner => [("expression", .node inner)]
  | typePredicate parameter type => [("parameter_name", .node parameter), ("ty", .node type)]
  | typeReference name arguments =>
    ("type_name", .node name) :: optionalArray "type_arguments" arguments
  | typeQuery name => [("expr_name", .node name)]
  | members list => [("members", .array list)]
  | arrayType element => [("element_type", .node element)]
  | typeList types => [("types", .array types)]
  | conditionalType check bound whenTrue whenFalse =>
    [("check_type", .node check), ("extends_type", .node bound), ("true_type", .node whenTrue),
      ("false_type", .node whenFalse)]
  | inferType parameter => [("type_parameter", .node parameter)]
  | parenthesizedType type => [("ty", .node type)]
  | typeOperator operator type => [("operator", .kind operator), ("ty", .node type)]
  | indexedAccessType object index => [("object_type", .node object), ("index_type", .node index)]
  | mappedType readonlyWord parameter questionMark type =>
    optionalNode "readonly_token" readonlyWord ++ [("type_parameter", .node parameter)]
      ++ optionalNode "question_token" questionMark ++ optionalNode "ty" type
  | literalType inner => [("literal", .node inner)]
  | elements list multiLine => [("elements", .array list), ("multi_line", .flag multiLine)]
  | objectLiteral properties multiLine =>
    [("properties", .array properties), ("multi_line", .flag multiLine)]
  | propertyAccess object questionDot name =>
    ("expression", .node object) :: optionalNode "question_dot_token" questionDot
      ++ [("name", .node name)]
  | elementAccess object questionDot index =>
    ("expression", .node object) :: optionalNode "question_dot_token" questionDot
      ++ [("argument_expression", .node index)]
  | call callee questionDot typeArguments arguments =>
    ("expression", .node callee) :: optionalNode "question_dot_token" questionDot
      ++ optionalArray "type_arguments" typeArguments ++ optionalArray "arguments" arguments
  | taggedTemplate tag text => [("tag", .node tag), ("template", .node text)]
  | typeAssertion type inner => [("ty", .node type), ("expression", .node inner)]
  | unary operator operand => [("operator", .kind operator), ("operand", .node operand)]
  | binary left operator right =>
    [("left", .node left), ("operator_token", .node operator), ("right", .node right)]
  | conditional condition questionMark whenTrue colon whenFalse =>
    [("condition", .node condition), ("question_token", .node questionMark),
      ("when_true", .node whenTrue), ("colon_token", .node colon), ("when_false", .node whenFalse)]
  | template head spans => [("head", .node head), ("template_spans", .array spans)]
  | templateSpan inner text => [("expression", .node inner), ("literal", .node text)]
  | yieldExpression asterisk inner =>
    optionalNode "asterisk_token" asterisk ++ optionalNode "expression" inner
  | withTypeArguments inner typeArguments =>
    ("expression", .node inner) :: optionalArray "type_arguments" typeArguments
  | asExpression inner type => [("expression", .node inner), ("ty", .node type)]
  | metaProperty keyword name => [("keyword_token", .kind keyword), ("name", .node name)]
  | block statements multiLine =>
    [("statements", .array statements), ("multi_line", .flag multiLine)]
  | variableStatement declarations => [("declaration_list", .node declarations)]
  | ifStatement condition whenTrue whenFalse =>
    ("expression", .node condition) :: ("then_statement", .node whenTrue)
      :: optionalNode "else_statement" whenFalse
  | doStatement body condition => [("statement", .node body), ("expression", .node condition)]
  | whileStatement condition body => [("expression", .node condition), ("statement", .node body)]
  | forStatement initializer condition increment body =>
    optionalNode "initializer" initializer ++ optionalNode "condition" condition
      ++ optionalNode "incrementor" increment ++ [("statement", .node body)]
  | forInOf awaitWord initializer source body =>
    optionalNode "await_modifier" awaitWord
      ++ [("initializer", .node initializer), ("expression", .node source),
        ("statement", .node body)]
  | jump label => optionalNode "label" label
  | returnStatement value => optionalNode "expression" value
  | switchStatement subject cases => [("expression", .node subject), ("case_block", .node cases)]
  | labeled label statement => [("label", .node label), ("statement", .node statement)]
  | tryStatement body handler finalizer =>
    ("try_block", .node body) :: optionalNode "catch_clause" handler
      ++ optionalNode "finally_block" finalizer
  | declarationList declarations => [("declarations", .array declarations)]
  | typeAlias name typeParameters type =>
    ("name", .node name) :: optionalArray "type_parameters" typeParameters ++ [("ty", .node type)]
  | enumeration name list => [("name", .node name), ("members", .array list)]
  | moduleDeclaration name body => ("name", .node name) :: optionalNode "body" body
  | caseBlock clauses => [("clauses", .array clauses)]
  | namespaceExport name => [("name", .node name)]
  | importEquals name reference => [("name", .node name), ("module_reference", .node reference)]
  | importDeclaration clause source =>
    optionalNode "import_clause" clause ++ [("module_specifier", .node source)]
  | importClause name bindings =>
    optionalNode "name" name ++ optionalNode "named_bindings" bindings
  | namespaceImport name => [("name", .node name)]
  | namedBindings list => [("elements", .array list)]
  | specifier propertyName name =>
    optionalNode "property_name" propertyName ++ [("name", .node name)]
  | exportAssignment isEquals inner =>
    [("is_export_equals", .flag isEquals), ("expression", .node inner)]
  | exportDeclaration clause source =>
    optionalNode "export_clause" clause ++ optionalNode "module_specifier" source
  | jsxElement opening children closing =>
    [("opening_element", .node opening), ("children", .array children),
      ("closing_element", .node closing)]
  | jsxTag name attributes => ("tag_name", .node name) :: optionalNode "attributes" attributes
  | jsxFragment opening children closing =>
    [("opening_fragment", .node opening), ("children", .array children),
      ("closing_fragment", .node closing)]
  | jsxAttribute name initializer => ("name", .node name) :: optionalNode "initializer" initializer
  | jsxAttributes properties => [("properties", .array properties)]
  | jsxExpression dots inner =>
    optionalNode "dot_dot_dot_token" dots ++ optionalNode "expression" inner
  | caseClause guard statements =>
    optionalNode "expression" guard ++ [("statements", .array statements)]
  | heritageClause keyword types => [("token", .kind keyword), ("types", .array types)]
  | catchClause binding body =>
    optionalNode "variable_declaration" binding ++ [("block", .node body)]
  | sourceFile statements endOfFile =>
    [("statements", .array statements), ("end_of_file_token", .node endOfFile)]

end Payload

/-! ## 2. Children -/

/-- A part of a node: a child, or a list of children. -/
inductive Part where
  | node (id : NodeId)
  | array (nodes : NodeArray)
  deriving DecidableEq, Repr

def Part.children : Part → List NodeId
  | .node id => [id]
  | .array nodes => nodes.nodes

/-- The part that a field holds, if it holds nodes. -/
def Field.part? : Field → Option Part
  | .node id => some (.node id)
  | .array nodes => some (.array nodes)
  | .kind _ | .flag _ => none

namespace Node

/-- The fields of a node that are not part of its payload. -/
def leadingFields (n : Node) : List (String × Field) :=
  optionalArray "decorators" n.decorators ++ optionalArray "modifiers" n.modifiers

/-- The parts of a node in the order of the source. -/
def parts (n : Node) : List Part :=
  (n.leadingFields ++ n.payload.fields).filterMap fun field => field.2.part?

/-- The children of a node in the order of the source. -/
def children (n : Node) : List NodeId := n.parts.flatMap Part.children

end Node

end ScriptSyntax
