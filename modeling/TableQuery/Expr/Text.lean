import TableQuery.Expr.Basic
import TableQuery.Scalar.Text

/-! # Texts of expressions

The display of an expression puts compound operands in parentheses. A column is written by its
name alone. The text names the output column of an expression that has no name of its own. -/

namespace TableQuery

namespace Expr

/-- Whether the expression is written in parentheses as an operand. -/
def isCompound : Expr → Bool
  | arith _ _ _ | compare _ _ _ | conj _ _ | unary _ _ => true
  | _ => false

/-- The text of an operand. -/
def parenthesized (compound : Bool) (s : String) : String := if compound then "(" ++ s ++ ")" else s

/-- The text of a literal, in which a string is quoted. -/
def literalText : Scalar → String
  | .utf8 s => "'" ++ s ++ "'"
  | v => v.text

/-- The parts of a window specification. -/
def overText (partitions keys : List String) : String :=
  let parts := (if partitions.isEmpty then [] else ["PARTITION BY " ++ ", ".intercalate partitions])
    ++ (if keys.isEmpty then [] else ["ORDER BY " ++ ", ".intercalate keys])
  " OVER (" ++ " ".intercalate parts ++ ")"

mutual

def text : Expr → String
  | .column _ name => name
  | .literal v => literalText v
  | .arith op a b =>
    parenthesized a.isCompound (text a) ++ " " ++ op.symbol ++ " " ++
      parenthesized b.isCompound (text b)
  | .compare op a b =>
    parenthesized a.isCompound (text a) ++ " " ++ op.symbol ++ " " ++
      parenthesized b.isCompound (text b)
  | .conj op es => (" " ++ op.symbol ++ " ").intercalate (operandTexts es)
  | .unary op e => op.around (parenthesized e.isCompound (text e))
  | .aggregate f input => f.call (inputText input)
  | .window .rowNumber _ ps ks => "row_number()" ++ overText (texts ps) (keyTexts ks)
  | .window (.aggregate f) input ps ks =>
    f.call (inputText input) ++ overText (texts ps) (keyTexts ks)
  | .aliased name e => text e ++ " AS " ++ name

def texts : List Expr → List String
  | [] => []
  | e :: r => text e :: texts r

def operandTexts : List Expr → List String
  | [] => []
  | e :: r => parenthesized e.isCompound (text e) :: operandTexts r

def inputText : Option Expr → Option String
  | none => none
  | some e => some (text e)

def keyTexts : List (SortKey Expr) → List String
  | [] => []
  | ⟨e, descending, nullsFirst⟩ :: r =>
    (text e ++ " " ++ (⟨(), descending, nullsFirst⟩ : SortKey Unit).directionText) :: keyTexts r

end

/-- The text of the expression as an operand of another. -/
def operandText (e : Expr) : String := parenthesized e.isCompound e.text

/-- The name of the column that the expression makes when projected. -/
def outputName : Expr → String
  | column _ name => name
  | aliased name _ => name
  | aggregate .countStar _ => "count"
  | e => e.text

end Expr

namespace SortKey

def text (k : SortKey Expr) : String := k.expr.text ++ " " ++ k.directionText

end SortKey

end TableQuery
