import Admission.Text.CaseTable

/-!
Lower case of a text. Every character has its own image, with two exceptions: the capital I with dot
becomes two characters, and the capital sigma becomes the final form where it ends a word.
-/

set_option autoImplicit false
set_option relaxedAutoImplicit false

namespace Admission.Text

def inRanges (ranges : List (Nat × Nat)) (n : Nat) : Bool :=
  ranges.any fun r ↦ r.1 ≤ n && n ≤ r.2

def isAsciiUpper (c : Char) : Bool :=
  'A' ≤ c && c ≤ 'Z'

def isAsciiLower (c : Char) : Bool :=
  'a' ≤ c && c ≤ 'z'

/-- What the run that holds the code point adds to it; zero outside all runs. -/
def lowerShift (n : Nat) : Int :=
  match lowerRuns.find? fun r ↦ r.1 ≤ n && n ≤ r.2.1 && (n - r.1) % r.2.2.1 == 0 with
  | some r => r.2.2.2
  | none => 0

/-- The lower-case form of a character that has one of its own. -/
def lowerChar (c : Char) : Char :=
  if c.toNat < 128 then
    if isAsciiUpper c then Char.ofNat (c.toNat + 32) else c
  else Char.ofNat (Int.toNat (c.toNat + lowerShift c.toNat))

/-- Characters that neither begin nor end a cased word: marks and word-internal signs. -/
def isCaseIgnorable (c : Char) : Bool :=
  if c.toNat < 128 then c == '\'' || c == '.' || c == ':' || c == '^' || c == '`'
  else inRanges caseIgnorableRanges c.toNat

def isCased (c : Char) : Bool :=
  if c.toNat < 128 then isAsciiUpper c || isAsciiLower c else inRanges casedRanges c.toNat

/-- The nearest character that is not case-ignorable is a cased one. -/
def facesCased (cs : List Char) : Bool :=
  match cs.dropWhile isCaseIgnorable with
  | [] => false
  | c :: _ => isCased c

/-- Lower case of `rest`, when the characters of `before` precede it, nearest first. -/
def lowerFrom (before : List Char) : List Char → List Char
  | [] => []
  | c :: rest =>
    let image :=
      if c = 'Σ' then [if facesCased before && !facesCased rest then 'ς' else 'σ']
      else if c = 'İ' then ['i', '\u0307']
      else [lowerChar c]
    image ++ lowerFrom (c :: before) rest

def lowerChars (cs : List Char) : List Char :=
  lowerFrom [] cs

def lower (s : String) : String :=
  String.ofList (lowerChars s.toList)

/-- Upper case as far as its result is made of ASCII letters. Any other character keeps its place,
so the result equals an ASCII word only if the full upper case does. -/
def upperAscii (s : String) : String :=
  String.ofList (s.toList.flatMap fun c ↦
    if isAsciiLower c then [Char.ofNat (c.toNat - 32)]
    else match c with
      | 'ı' => ['I']
      | 'ſ' => ['S']
      | 'ß' => ['S', 'S']
      | 'ﬀ' => ['F', 'F']
      | 'ﬁ' => ['F', 'I']
      | 'ﬂ' => ['F', 'L']
      | 'ﬃ' => ['F', 'F', 'I']
      | 'ﬄ' => ['F', 'F', 'L']
      | 'ﬅ' => ['S', 'T']
      | 'ﬆ' => ['S', 'T']
      | c => [c])

end Admission.Text
