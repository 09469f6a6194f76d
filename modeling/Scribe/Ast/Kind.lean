/-!
# Kinds of syntax nodes

Every node of the abstract syntax has a kind. `NodeKind.name` is its name in dumps and faults,
`NodeKind.label` its name in listings.
-/

namespace Scribe

/-- The kind of a syntax node. -/
inductive NodeKind where
  | program
  | functionDefinition | classDefinition | assignment
  | reference | defaultParameter | typedParameter | typedDefaultParameter
  | call | keywordArgument | memberExpression | subscript | slice
  | binaryOperator | notOperator | unaryOperator | conditionalExpression
  | parenthesizedExpression | lambda
  | ifStatement | forStatement | whileStatement | returnStatement | raiseStatement
  | passStatement | breakStatement | continueStatement
  | string | integer | float | boolean | null | comment
  | list | tuple | dictionary | pair | patternList
  deriving DecidableEq, Repr

namespace NodeKind

/-- The name in dumps and faults. -/
def name : NodeKind → String
  | program => "program"
  | functionDefinition => "function_definition"
  | classDefinition => "class_definition"
  | assignment => "assignment"
  | reference => "reference"
  | defaultParameter => "default_parameter"
  | typedParameter => "typed_parameter"
  | typedDefaultParameter => "typed_default_parameter"
  | call => "call"
  | keywordArgument => "keyword_argument"
  | memberExpression => "member_expression"
  | subscript => "subscript"
  | slice => "slice"
  | binaryOperator => "binary_operator"
  | notOperator => "not_operator"
  | unaryOperator => "unary_operator"
  | conditionalExpression => "conditional_expression"
  | parenthesizedExpression => "parenthesized_expression"
  | lambda => "lambda"
  | ifStatement => "if_statement"
  | forStatement => "for_statement"
  | whileStatement => "while_statement"
  | returnStatement => "return_statement"
  | raiseStatement => "raise_statement"
  | passStatement => "pass_statement"
  | breakStatement => "break_statement"
  | continueStatement => "continue_statement"
  | string => "string"
  | integer => "integer"
  | float => "float"
  | boolean => "boolean"
  | null => "null"
  | comment => "comment"
  | list => "list"
  | tuple => "tuple"
  | dictionary => "dictionary"
  | pair => "pair"
  | patternList => "pattern_list"

/-- The name in listings. -/
def label : NodeKind → String
  | program => "Program"
  | functionDefinition => "FunctionDefinition"
  | classDefinition => "ClassDefinition"
  | assignment => "Assignment"
  | reference => "Reference"
  | defaultParameter => "DefaultParameter"
  | typedParameter => "TypedParameter"
  | typedDefaultParameter => "TypedDefaultParameter"
  | call => "Call"
  | keywordArgument => "KeywordArgument"
  | memberExpression => "MemberExpression"
  | subscript => "Subscript"
  | slice => "Slice"
  | binaryOperator => "BinaryOperator"
  | notOperator => "NotOperator"
  | unaryOperator => "UnaryOperator"
  | conditionalExpression => "ConditionalExpression"
  | parenthesizedExpression => "ParenthesizedExpression"
  | lambda => "Lambda"
  | ifStatement => "IfStatement"
  | forStatement => "ForStatement"
  | whileStatement => "WhileStatement"
  | returnStatement => "ReturnStatement"
  | raiseStatement => "RaiseStatement"
  | passStatement => "PassStatement"
  | breakStatement => "BreakStatement"
  | continueStatement => "ContinueStatement"
  | string => "StringLiteral"
  | integer => "IntegerLiteral"
  | float => "FloatLiteral"
  | boolean => "BooleanLiteral"
  | null => "NullLiteral"
  | comment => "Comment"
  | list => "ListLiteral"
  | tuple => "TupleLiteral"
  | dictionary => "Dictionary"
  | pair => "Pair"
  | patternList => "PatternList"

/-- Every kind. -/
def all : List NodeKind :=
  [program, functionDefinition, classDefinition, assignment, reference, defaultParameter,
    typedParameter, typedDefaultParameter, call, keywordArgument, memberExpression, subscript,
    slice, binaryOperator, notOperator, unaryOperator, conditionalExpression,
    parenthesizedExpression, lambda, ifStatement, forStatement, whileStatement, returnStatement,
    raiseStatement, passStatement, breakStatement, continueStatement, string, integer, float,
    boolean, null, comment, list, tuple, dictionary, pair, patternList]

/-- The kind with the given name. -/
def ofName? (s : String) : Option NodeKind :=
  all.find? (·.name == s)

theorem mem_all (k : NodeKind) : k ∈ all := by
  cases k <;> decide

/-- Every kind is found by its name. -/
theorem ofName?_name (k : NodeKind) : ofName? k.name = some k := by
  have hnames : ∀ k ∈ all, ofName? k.name = some k := by decide +kernel
  exact hnames k (mem_all k)

/-- A kind is determined by its name. -/
theorem name_injective {a b : NodeKind} (h : a.name = b.name) : a = b :=
  Option.some.inj ((ofName?_name a).symm.trans (h ▸ ofName?_name b))

end NodeKind

end Scribe
