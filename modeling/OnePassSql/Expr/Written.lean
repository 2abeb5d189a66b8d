import OnePassSql.Expr.Basic

/-! The canonical text of expressions and the labels of result columns. -/

namespace OnePassSql.Expr

mutual

/-- The canonical text of an expression. Every binary node stands in parentheses. -/
def written : Expr → String
  | literal (.text s) => "'" ++ s ++ "'"
  | literal v => v.written
  | parameter index => "?" ++ toString index
  | column name => name
  | unary .not e => "NOT (" ++ written e ++ ")"
  | unary .negate e => "-(" ++ written e ++ ")"
  | unary .notNull e => "(" ++ written e ++ ") NOT NULL"
  | unary .isNull e => "(" ++ written e ++ ") ISNULL"
  | binary op l r => "(" ++ written l ++ " " ++ op.symbol ++ " " ++ written r ++ ")"
  | call function arguments => function ++ "(" ++ writtenAll arguments ++ ")"
  | membership e list negated =>
    written e ++ " " ++ (if negated then "NOT " else "") ++ "IN (" ++ list ++ ")"

/-- The texts of expressions with commas between them. -/
def writtenAll : List Expr → String
  | [] => ""
  | [e] => written e
  | e :: rest => written e ++ ", " ++ writtenAll rest

end

/-- The parenthesis that brings the depth to zero is the last character. Parentheses between
single quotes do not count. -/
def closesAtEnd (depth : Nat) (inQuotes : Bool) : List Char → Bool
  | [] => false
  | c :: rest =>
    if c = '\'' then closesAtEnd depth (!inQuotes) rest
    else if inQuotes then closesAtEnd depth inQuotes rest
    else if c = '(' then closesAtEnd (depth + 1) inQuotes rest
    else if c = ')' then
      if depth = 1 then rest.isEmpty else closesAtEnd (depth - 1) inQuotes rest
    else closesAtEnd depth inQuotes rest

/-- The text without one pair of parentheses that encloses all of it. -/
def withoutOuterPair (text : List Char) : List Char :=
  match text with
  | '(' :: rest => if closesAtEnd 1 false rest then rest.dropLast else text
  | _ => text

/-- The name of the column that shows the expression. -/
def label (e : Expr) : String :=
  String.ofList (withoutOuterPair e.written.toList)

end OnePassSql.Expr
