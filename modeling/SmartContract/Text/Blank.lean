/-!
Blank characters and what is done with them: trimming, and splitting into words and lines. Blank
are the characters with the Unicode property White_Space.
-/

namespace SmartContract.Text

/-- The blank characters as closed ranges of code points. -/
def blankRanges : List (Nat × Nat) :=
  [(0x09, 0x0D), (0x20, 0x20), (0x85, 0x85), (0xA0, 0xA0), (0x1680, 0x1680), (0x2000, 0x200A),
   (0x2028, 0x2029), (0x202F, 0x202F), (0x205F, 0x205F), (0x3000, 0x3000)]

/-- Does the character have the property White_Space? -/
def isBlank (c : Char) : Bool :=
  blankRanges.any fun r => r.1 ≤ c.toNat && c.toNat ≤ r.2

def trimChars (s : List Char) : List Char :=
  ((s.dropWhile isBlank).reverse.dropWhile isBlank).reverse

def trim (s : String) : String := String.ofList (trimChars s.toList)

/-- The pieces between the characters that satisfy `isBreak`: always one more than there are
breaks, and empty where two breaks meet. -/
def pieces (isBreak : Char → Bool) : List Char → List (List Char)
  | [] => [[]]
  | c :: rest =>
    if isBreak c then [] :: pieces isBreak rest
    else
      match pieces isBreak rest with
      | [] => [[c]]
      | piece :: more => (c :: piece) :: more

/-- The words of a text on one line, with one space between them. -/
def oneLine (s : String) : String :=
  String.ofList (((pieces isBlank s.toList).filter (!·.isEmpty)).intersperse [' ']).flatten

/-- The lines of a text that hold more than blanks, each without the blanks at its ends. -/
def filledLines (s : String) : List String :=
  (((pieces (· == '\n') s.toList).map trimChars).filter (!·.isEmpty)).map String.ofList

example : oneLine " a\t\nb  " = "a b" := by decide
example : filledLines "one \n\n two" = ["one", "two"] := by decide

end SmartContract.Text
