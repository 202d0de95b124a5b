import PresenceCaps.Text.Numeral

/-! The small pieces of TOML: blanks, comments, line ends, digits and strings. A reader takes characters from
the front and gives back the rest. -/
namespace PresenceCaps.Toml

def isSpace (c : Char) : Bool := c == ' ' || c == '\t'

def skipSpace (cs : List Char) : List Char := cs.dropWhile isSpace

/-- Control characters stand nowhere in a document, the tab and line ends apart. -/
def isPlain (c : Char) : Bool := c == '\t' || (0x20 ≤ c.toNat && c.toNat != 0x7f)

def newline? : List Char → Option (List Char)
  | '\n' :: cs => some cs
  | '\r' :: '\n' :: cs => some cs
  | _ => none

def skipComment : List Char → List Char
  | '#' :: cs => cs.dropWhile isPlain
  | cs => cs

/-- Nothing but blanks and a comment up to the end of the line or of the text. -/
def endOfLine? (cs : List Char) : Option (List Char) :=
  match skipComment (skipSpace cs) with
  | [] => some []
  | rest => newline? rest

/-- Blanks, comments and line ends, as between the items of an array. -/
def skipLines : List Char → List Char
  | '\r' :: '\n' :: cs => skipLines cs
  | c :: cs =>
    if isSpace c || c == '\n' then skipLines cs
    else if c = '#' then skipLines (cs.dropWhile isPlain)
    else c :: cs
  | [] => []
termination_by cs => cs.length
decreasing_by
  · exact Nat.lt_add_of_pos_right (Nat.succ_pos 1)
  · exact Nat.lt_succ_self cs.length
  · exact Nat.lt_succ_of_le (List.dropWhile_sublist isPlain).length_le

/-- Digits of a base, single underscores between them left out. -/
def digitRun? (base : Nat) : List Char → Option (List Char × List Char)
  | [] => none
  | c :: cs => if (digitIn? base c).isSome then some (more [c] cs) else none
where
  more (taken : List Char) : List Char → List Char × List Char
    | '_' :: c :: cs =>
      if (digitIn? base c).isSome then more (c :: taken) cs else (taken.reverse, '_' :: c :: cs)
    | c :: cs => if (digitIn? base c).isSome then more (c :: taken) cs else (taken.reverse, c :: cs)
    | [] => (taken.reverse, [])

/-- The code point that exactly so many digits stand for. -/
def hexEscape? (n : Nat) (cs : List Char) : Option (Char × List Char) :=
  let ds := cs.take n
  if ds.length = n then (charOfHex? ds).map fun c => (c, cs.drop n) else none

/-- What follows a backslash in a string. -/
def escape? : List Char → Option (Char × List Char)
  | 'b' :: cs => some ('\x08', cs)
  | 't' :: cs => some ('\t', cs)
  | 'n' :: cs => some ('\n', cs)
  | 'f' :: cs => some ('\x0c', cs)
  | 'r' :: cs => some ('\r', cs)
  | '"' :: cs => some ('"', cs)
  | '\\' :: cs => some ('\\', cs)
  | 'u' :: cs => hexEscape? 4 cs
  | 'U' :: cs => hexEscape? 8 cs
  | _ => none

/-- The text up to the closing quote as it stands, and what follows the quote. -/
def untilQuote? (taken : List Char) : List Char → Option (List Char × List Char)
  | '"' :: cs => some (taken.reverse, cs)
  | '\\' :: c :: cs => untilQuote? (c :: '\\' :: taken) cs
  | c :: cs => if isPlain c then untilQuote? (c :: taken) cs else none
  | [] => none

/-- The text with its escapes resolved. -/
def unescape? (taken : List Char) : Nat → List Char → Option (List Char)
  | _, [] => some taken.reverse
  | 0, _ => none
  | fuel + 1, '\\' :: cs => (escape? cs).bind fun (c, cs) => unescape? (c :: taken) fuel cs
  | fuel + 1, c :: cs => unescape? (c :: taken) fuel cs

/-- The rest of a string in double quotes. -/
def basicString? (cs : List Char) : Option (String × List Char) := do
  let (raw, cs) ← untilQuote? [] cs
  let text ← unescape? [] raw.length raw
  return (String.ofList text, cs)

/-- The rest of a string in single quotes. -/
def literalString? (taken : List Char) : List Char → Option (String × List Char)
  | '\'' :: cs => some (String.ofList taken.reverse, cs)
  | c :: cs => if isPlain c then literalString? (c :: taken) cs else none
  | [] => none

/-- The text up to the quotes that close a string over lines, and what follows them. Three quotes close it; one
or two more before them belong to it. -/
def untilQuotes? (quote : Char) (taken : List Char) : List Char → Option (List Char × List Char)
  | [] => none
  | c :: cs =>
    if c = quote ∧ cs.take 2 = [quote, quote] then
      let run := (c :: cs).takeWhile (· == quote)
      if run.length ≤ 5 then some ((run.drop 3 ++ taken).reverse, (c :: cs).drop run.length) else none
    else if c = '\\' ∧ quote = '"' then
      match cs with
      | [] => none
      | d :: cs => untilQuotes? quote (d :: c :: taken) cs
    else untilQuotes? quote (c :: taken) cs

/-- After a backslash at the end of a line: the line end and all blanks and line ends that follow. -/
def lineContinuation? (cs : List Char) : Option (List Char) :=
  (newline? (skipSpace cs)).map skipAll
where
  skipAll : List Char → List Char
    | '\r' :: '\n' :: cs => skipAll cs
    | c :: cs => if isSpace c || c == '\n' then skipAll cs else c :: cs
    | [] => []

/-- The text of a string over lines; in double quotes the backslash escapes. -/
def resolveLines? (quote : Char) (taken : List Char) : Nat → List Char → Option (List Char)
  | _, [] => some taken.reverse
  | 0, _ => none
  | fuel + 1, c :: cs =>
    match newline? (c :: cs) with
    | some rest => resolveLines? quote ('\n' :: taken) fuel rest
    | none =>
      if c = '\\' ∧ quote = '"' then
        match lineContinuation? cs with
        | some rest => resolveLines? quote taken fuel rest
        | none => (escape? cs).bind fun (c, rest) => resolveLines? quote (c :: taken) fuel rest
      else if isPlain c then resolveLines? quote (c :: taken) fuel cs
      else none

/-- A line end right after the opening quotes is not part of the string. -/
def multiline? (quote : Char) (cs : List Char) : Option (String × List Char) := do
  let (raw, cs) ← untilQuotes? quote [] ((newline? cs).getD cs)
  let text ← resolveLines? quote [] raw.length raw
  return (String.ofList text, cs)

def singleLine? : List Char → Option (String × List Char)
  | '"' :: cs => basicString? cs
  | '\'' :: cs => literalString? [] cs
  | _ => none

def string? : List Char → Option (String × List Char)
  | '"' :: '"' :: '"' :: cs => multiline? '"' cs
  | '\'' :: '\'' :: '\'' :: cs => multiline? '\'' cs
  | cs => singleLine? cs

end PresenceCaps.Toml
