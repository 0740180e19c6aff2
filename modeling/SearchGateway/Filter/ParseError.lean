import SearchGateway.Filter.Shape

/-!
# What is wrong with a filter text

A problem is located by the text that is left to read where it was found; its message names the
byte offset of that place and the token that stands there.
-/

namespace SearchGateway.Filter

open SearchGateway.Text

/-- Problems that have a place in the text. -/
inductive Problem
  | expectedField
  | emptySegment (text : List Char)
  | missingValue
  | operatorAsValue (word : List Char)
  | unterminatedString
  | unterminatedList
  | expectedSeparator
  | integerOutOfRange (word : List Char)
  | missingOperand
  | missingOperator (field : String)
  | unknownOperator
  | unknownConnective
  | unclosedParenthesis
  | expectedClose
  | unbalancedClose
  | unexpected
  | unexpectedAfterField
  | unexpectedAfterOperator
  deriving DecidableEq

inductive ParseError
  | empty
  | located (problem : Problem) (rest : List Char)
  | misfit (m : Misfit)
  deriving DecidableEq

/-- The text up to the next layout character, to name what was found. -/
def token (s : List Char) : String :=
  match s.takeWhile fun c => !isLayout c with
  | [] => "<end of input>"
  | cs => String.ofList cs

/-- The byte offset of the place where `rest` is left of `input`. -/
def offset (input rest : List Char) : Nat := byteLength input - byteLength rest

namespace Problem

/-- The message of a problem at an offset, with the token found there. -/
def message (p : Problem) (offset : Nat) (found : String) : String :=
  let place := "at offset " ++ toString offset
  match p with
  | expectedField => "expected field name " ++ place ++ ", found '" ++ found ++ "'"
  | emptySegment text => "empty path segment in field '" ++ String.ofList text ++ "' " ++ place
  | missingValue => "missing value " ++ place
  | operatorAsValue word =>
    "missing value " ++ place ++ ", found operator '" ++ String.ofList word ++ "'"
  | unterminatedString => "unterminated string starting " ++ place
  | unterminatedList => "unterminated list starting " ++ place
  | expectedSeparator => "expected ',' or ']' " ++ place ++ ", found '" ++ found ++ "'"
  | integerOutOfRange word =>
    "integer '" ++ String.ofList word ++ "' " ++ place ++ " is out of range"
  | missingOperand => "missing operand " ++ place
  | missingOperator field => "missing operator after field '" ++ field ++ "' " ++ place
  | unknownOperator => "unknown operator '" ++ found ++ "' " ++ place
  | unknownConnective => "unknown logical operator '" ++ found ++ "' " ++ place
  | unclosedParenthesis => "unbalanced parenthesis opened " ++ place
  | expectedClose => "expected ')' " ++ place ++ ", found '" ++ found ++ "'"
  | unbalancedClose => "unbalanced parenthesis " ++ place
  | unexpected => "unexpected '" ++ found ++ "' " ++ place
  | unexpectedAfterField => "unexpected '" ++ found ++ "' after field " ++ place
  | unexpectedAfterOperator => "unexpected '" ++ found ++ "' after operator " ++ place

/-- An integer too large is well formed; every other problem is one of form. -/
def failure (p : Problem) (offset : Nat) (found : String) : Failure :=
  match p with
  | integerOutOfRange _ => .invalid (p.message offset found)
  | _ => .malformed (p.message offset found)

end Problem

namespace ParseError

/-- The failure of reading `input`. -/
def failure (input : String) : ParseError → Failure
  | empty => .malformed "filter is empty"
  | located problem rest => problem.failure (offset input.toList rest) (token rest)
  | misfit m => m.failure

end ParseError

end SearchGateway.Filter
