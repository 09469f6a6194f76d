/-!
# Kinds of tree nodes

The grammar's names for the nodes of a concrete syntax tree. Those with a meaning for the builder
have a constructor; punctuation, keywords, operators and all other names are tokens.
-/

namespace Scribe

/-- The kind of a node of a concrete syntax tree. -/
inductive Kind where
  | moduleRoot | block | expressionStatement | functionDefinition | classDefinition
  | decoratedDefinition | decorator | ifStatement | elifClause | elseClause | forStatement
  | whileStatement | returnStatement | raiseStatement | passStatement | breakStatement
  | continueStatement | importStatement | importFromStatement | futureImportStatement
  | assignment | augmentedAssignment | identifier | memberAccess | call | argumentList
  | keywordArgument | listSplat | dictionarySplat | subscript | slice | binaryOperator
  | booleanOperator | comparisonOperator | notOperator | unaryOperator | conditionalExpression
  | parenthesizedExpression | lambda | lambdaParameters | parameters | defaultParameter
  | typedParameter | typedDefaultParameter | listSplatPattern | dictionarySplatPattern
  | keywordSeparator | positionalSeparator | type | string | integer | float | trueLiteral
  | falseLiteral | noneLiteral | list | tuple | expressionList | dictionary | pair | patternList
  | tuplePattern | listPattern | comment | lineContinuation
  /-- Punctuation, a keyword, an operator, or a name without a rule. -/
  | token (name : String)
  deriving DecidableEq, Repr

namespace Kind

/-- The grammar's name. -/
def name : Kind → String
  | moduleRoot => "module"
  | block => "block"
  | expressionStatement => "expression_statement"
  | functionDefinition => "function_definition"
  | classDefinition => "class_definition"
  | decoratedDefinition => "decorated_definition"
  | decorator => "decorator"
  | ifStatement => "if_statement"
  | elifClause => "elif_clause"
  | elseClause => "else_clause"
  | forStatement => "for_statement"
  | whileStatement => "while_statement"
  | returnStatement => "return_statement"
  | raiseStatement => "raise_statement"
  | passStatement => "pass_statement"
  | breakStatement => "break_statement"
  | continueStatement => "continue_statement"
  | importStatement => "import_statement"
  | importFromStatement => "import_from_statement"
  | futureImportStatement => "future_import_statement"
  | assignment => "assignment"
  | augmentedAssignment => "augmented_assignment"
  | identifier => "identifier"
  | memberAccess => "attribute"
  | call => "call"
  | argumentList => "argument_list"
  | keywordArgument => "keyword_argument"
  | listSplat => "list_splat"
  | dictionarySplat => "dictionary_splat"
  | subscript => "subscript"
  | slice => "slice"
  | binaryOperator => "binary_operator"
  | booleanOperator => "boolean_operator"
  | comparisonOperator => "comparison_operator"
  | notOperator => "not_operator"
  | unaryOperator => "unary_operator"
  | conditionalExpression => "conditional_expression"
  | parenthesizedExpression => "parenthesized_expression"
  | lambda => "lambda"
  | lambdaParameters => "lambda_parameters"
  | parameters => "parameters"
  | defaultParameter => "default_parameter"
  | typedParameter => "typed_parameter"
  | typedDefaultParameter => "typed_default_parameter"
  | listSplatPattern => "list_splat_pattern"
  | dictionarySplatPattern => "dictionary_splat_pattern"
  | keywordSeparator => "keyword_separator"
  | positionalSeparator => "positional_separator"
  | type => "type"
  | string => "string"
  | integer => "integer"
  | float => "float"
  | trueLiteral => "true"
  | falseLiteral => "false"
  | noneLiteral => "none"
  | list => "list"
  | tuple => "tuple"
  | expressionList => "expression_list"
  | dictionary => "dictionary"
  | pair => "pair"
  | patternList => "pattern_list"
  | tuplePattern => "tuple_pattern"
  | listPattern => "list_pattern"
  | comment => "comment"
  | lineContinuation => "line_continuation"
  | token s => s

/-- The kinds with a constructor of their own. -/
def named : List Kind :=
  [moduleRoot, block, expressionStatement, functionDefinition, classDefinition,
    decoratedDefinition, decorator, ifStatement, elifClause, elseClause, forStatement,
    whileStatement, returnStatement, raiseStatement, passStatement, breakStatement,
    continueStatement, importStatement, importFromStatement, futureImportStatement, assignment,
    augmentedAssignment, identifier, memberAccess, call, argumentList, keywordArgument,
    listSplat, dictionarySplat, subscript, slice, binaryOperator, booleanOperator,
    comparisonOperator, notOperator, unaryOperator, conditionalExpression,
    parenthesizedExpression, lambda, lambdaParameters, parameters, defaultParameter,
    typedParameter, typedDefaultParameter, listSplatPattern, dictionarySplatPattern,
    keywordSeparator, positionalSeparator, type, string, integer, float, trueLiteral,
    falseLiteral, noneLiteral, list, tuple, expressionList, dictionary, pair, patternList,
    tuplePattern, listPattern, comment, lineContinuation]

/-- The kind with the given name. -/
def ofName (s : String) : Kind :=
  (named.find? (·.name == s)).getD (token s)

/-- A kind keeps the name it was read from. -/
theorem name_ofName (s : String) : (ofName s).name = s := by
  unfold ofName
  cases h : named.find? (·.name == s) with
  | none => rfl
  | some k => simpa using List.find?_some h

/-- Extras may stand anywhere and never mean anything. -/
def isExtra : Kind → Bool
  | comment => true
  | lineContinuation => true
  | _ => false

end Kind

end Scribe
