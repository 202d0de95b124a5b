import PresenceCaps.Assoc

/-!
Regular expressions, as the fields of a log filter are compared with. There are no tables of Unicode classes
and of letter case here, and a match is one run of text: a pattern that needs more is not supported.
-/
namespace PresenceCaps

namespace Pattern

inductive Switch where
  | caseless
  | multiline
  | dotMatchesNewline
  | swapGreed
  | unicode
  | crlf
  | verbose
deriving DecidableEq, Repr

def Switch.ofChar? : Char → Option Switch
  | 'i' => some caseless
  | 'm' => some multiline
  | 's' => some dotMatchesNewline
  | 'U' => some swapGreed
  | 'u' => some unicode
  | 'R' => some crlf
  | 'x' => some verbose
  | _ => none

/-- Switches that are turned on or off together. -/
abbrev Switches := Assoc Switch Bool

/-- A character, and whether it is written as a byte of two hexadecimal digits. -/
structure Literal where
  char : Char
  isByte : Bool
deriving DecidableEq, Repr

def Literal.isAscii (l : Literal) : Bool := l.char.toNat < 128

inductive Assertion where
  | lineStart
  | lineEnd
  | textStart
  | textEnd
  | wordEdge
  | noWordEdge
  | wordStart
  | wordEnd
deriving DecidableEq, Repr

def Assertion.isAboutWords : Assertion → Bool
  | lineStart | lineEnd | textStart | textEnd => false
  | wordEdge | noWordEdge | wordStart | wordEnd => true

/-- What a class in brackets holds. Named classes are those of ASCII; families are the digits, the blanks and
the word characters. -/
inductive Members where
  | empty
  | literal (l : Literal)
  | range (first last : Literal)
  | named (negated : Bool)
  | family (negated : Bool)
  | nested (negated : Bool) (members : Members)
  | union (members : List Members)
  | combined (left right : Members)

/-- The part of the switches that decides what is supported. -/
structure Mode where
  caseless : Bool
  unicode : Bool
deriving DecidableEq, Repr

namespace Mode

def default : Mode := ⟨false, true⟩

def turn (m : Mode) (s : Switches) : Mode where
  caseless := (s.get? .caseless).getD m.caseless
  unicode := (s.get? .unicode).getD m.unicode

/-- Letter case beyond ASCII would need a table, and a lone byte beyond ASCII is no text. -/
def supportsLiteral (m : Mode) (l : Literal) : Bool :=
  if m.unicode then !m.caseless else l.isAscii || !l.isByte

/-- In bytes a class stays within ASCII, as everything else there may match a part of a character. -/
def supportsMember (m : Mode) (l : Literal) : Bool := if m.unicode then !m.caseless else l.isAscii

/-- A class with a name; in bytes its complement is beyond ASCII. -/
def supportsNamed (m : Mode) (negated : Bool) : Bool := if m.unicode then !m.caseless else !negated

def supportsFamily (m : Mode) (negated : Bool) : Bool := !m.unicode && !negated

def supportsNegation (m : Mode) (negated : Bool) : Bool := m.unicode || !negated

def supportsAssertion (m : Mode) (a : Assertion) : Bool := !(m.unicode && a.isAboutWords)

end Mode

namespace Members

mutual

def isSupported (m : Mode) : Members → Bool
  | empty => true
  | literal l => m.supportsMember l
  | range a b => m.supportsMember a && m.supportsMember b
  | named negated => m.supportsNamed negated
  | family negated => m.supportsFamily negated
  | nested negated inner => m.supportsNegation negated && inner.isSupported m
  | union items => areSupported m items
  | combined a b => a.isSupported m && b.isSupported m

def areSupported (m : Mode) : List Members → Bool
  | [] => true
  | x :: xs => x.isSupported m && areSupported m xs

end

mutual

/-- How many levels of nesting there are. -/
def depth : Members → Nat
  | nested _ inner => inner.depth + 1
  | union items => depthOfAll items + 1
  | combined a b => max a.depth b.depth + 1
  | _ => 0

def depthOfAll : List Members → Nat
  | [] => 0
  | x :: xs => max x.depth (depthOfAll xs)

end

/-- A single item stands for itself. -/
def ofList : List Members → Members
  | [] => empty
  | [x] => x
  | xs => union xs

end Members
end Pattern

inductive Pattern where
  | empty
  | literal (l : Pattern.Literal)
  | anyChar
  | assertion (a : Pattern.Assertion)
  | family (negated : Bool)
  | bracketed (negated : Bool) (members : Pattern.Members)
  | switches (s : Pattern.Switches)
  | repeated (p : Pattern)
  | group (s : Pattern.Switches) (p : Pattern)
  | sequence (ps : List Pattern)
  | choice (ps : List Pattern)

namespace Pattern

mutual

/-- The mode after a pattern that is supported: switches act to the end of the group that they stand in. -/
def modeAfter? (m : Mode) : Pattern → Option Mode
  | empty => some m
  | literal l => if m.supportsLiteral l then some m else none
  | anyChar => if m.unicode then some m else none
  | assertion a => if m.supportsAssertion a then some m else none
  | family negated => if m.supportsFamily negated then some m else none
  | bracketed negated members =>
    if m.supportsNegation negated && members.isSupported m then some m else none
  | switches s => some (m.turn s)
  | repeated p => p.modeAfter? m
  | group s p => (p.modeAfter? (m.turn s)).map fun _ => m
  | sequence ps => modeAfterAll? m ps
  | choice ps => modeAfterAll? m ps

def modeAfterAll? (m : Mode) : List Pattern → Option Mode
  | [] => some m
  | p :: ps => (p.modeAfter? m).bind (modeAfterAll? · ps)

end

mutual

def depth : Pattern → Nat
  | bracketed _ members => members.depth + 1
  | repeated p => p.depth + 1
  | group _ p => p.depth + 1
  | sequence ps => depthOfAll ps + 1
  | choice ps => depthOfAll ps + 1
  | _ => 0

def depthOfAll : List Pattern → Nat
  | [] => 0
  | p :: ps => max p.depth (depthOfAll ps)

end

def depthLimit : Nat := 250

def isSupported (p : Pattern) : Bool := p.depth ≤ depthLimit && (p.modeAfter? .default).isSome

def ofSequence : List Pattern → Pattern
  | [] => empty
  | [p] => p
  | ps => sequence ps

def ofChoice : List Pattern → Pattern
  | [p] => p
  | ps => choice ps

end Pattern
end PresenceCaps
