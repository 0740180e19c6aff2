/-!
# Wildcard patterns

A `LIKE` pattern uses `%` for any text and `_` for any character; the backend uses `*` and `?`.
The two characters `\n` stand for a line break, which is put in first.
-/

namespace SearchGateway.Query

/-- Puts a line break for every backslash followed by `n`. -/
def breakLines : List Char → List Char
  | [] => []
  | '\\' :: 'n' :: cs => '\n' :: breakLines cs
  | c :: cs => c :: breakLines cs

/-- Swaps the wildcards of `LIKE` for those of the backend. What the backend would take for a
wildcard is escaped, and an escaped `%` or `_` needs no escape any more. -/
def swapWildcards : List Char → List Char
  | [] => []
  | ['\\'] => ['\\']
  | '\\' :: c :: cs =>
    if c = '%' ∨ c = '_' then c :: swapWildcards cs else '\\' :: c :: swapWildcards cs
  | c :: cs =>
    if c = '*' ∨ c = '?' then '\\' :: c :: swapWildcards cs
    else if c = '%' then '*' :: swapWildcards cs
    else if c = '_' then '?' :: swapWildcards cs
    else c :: swapWildcards cs

/-- The wildcard pattern of a `LIKE` pattern. -/
def wildcardOf (pattern : String) : String :=
  String.ofList (swapWildcards (breakLines pattern.toList))

end SearchGateway.Query
