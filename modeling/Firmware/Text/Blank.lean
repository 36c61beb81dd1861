/-
  Firmware: white space and words. The blanks are the characters with the Unicode property
  White_Space; the words of a text are its maximal runs of other characters.
-/

namespace Firmware

/-- Whether a character has the Unicode property White_Space. -/
def isWhite (c : Char) : Bool :=
  let n := c.toNat
  (0x9 ≤ n && n ≤ 0xD) || n = 0x20 || n = 0x85 || n = 0xA0 || n = 0x1680 ||
    (0x2000 ≤ n && n ≤ 0x200A) || n = 0x2028 || n = 0x2029 || n = 0x202F || n = 0x205F ||
    n = 0x3000

/-- The words of a text that follow a partial word, whose characters come latest first. -/
def wordsFrom (partialWord : List Char) : List Char → List (List Char)
  | [] => if partialWord = [] then [] else [partialWord.reverse]
  | c :: rest =>
    if isWhite c then
      if partialWord = [] then wordsFrom [] rest
      else partialWord.reverse :: wordsFrom [] rest
    else wordsFrom (c :: partialWord) rest

/-- The words of a text, in order. -/
def words (text : String) : List String := (wordsFrom [] text.toList).map String.ofList

end Firmware
