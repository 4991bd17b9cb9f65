import ArchLang.Text.CaseTable

/-!
# Lower case

The full lowercase mapping of Unicode without tailoring.  Two characters are not mapped one to one:
the capital I with a dot becomes two characters, and a capital sigma becomes the final form of the
letter at the end of a word.

* `lowercase` maps a text.
* `lowercaseFrom` is the same for what follows a given beginning, which a sigma has to look at.
-/

namespace ArchLang

/-- The simple lowercase mapping of a character. -/
def lowercaseChar (c : Char) : Char :=
  match lowercaseRuns.find? fun r =>
      r.first ≤ c.toNat && c.toNat ≤ r.last && (c.toNat - r.first) % r.stride == 0 with
  | some r => Char.ofNat (r.target + (c.toNat - r.first))
  | none => c

/-- Whether a character lies in one of the closed ranges. -/
def inRanges (ranges : List (Nat × Nat)) (c : Char) : Bool :=
  ranges.any fun r => r.1 ≤ c.toNat && c.toNat ≤ r.2

/-- Whether the first character that is not passed over has case. -/
def meetsCased (text : List Char) : Bool :=
  match text.dropWhile (inRanges caseIgnorableRanges) with
  | [] => false
  | c :: _ => inRanges casedRanges c

/-- Lower-case a text.  `before` is what comes before it, in reverse. -/
def lowercaseFrom (before : List Char) : List Char → List Char
  | [] => []
  | c :: rest =>
    let mapped :=
      if c = 'İ' then ['i', '\u0307']
      else if c = 'Σ' then
        if meetsCased before && !meetsCased rest then ['ς'] else ['σ']
      else [lowercaseChar c]
    mapped ++ lowercaseFrom (c :: before) rest

/-- Lower-case a text. -/
def lowercase (text : String) : String := String.ofList (lowercaseFrom [] text.toList)

example : lowercase "ΟΔΟΣ Σ" = "οδος σ" := by decide +kernel

end ArchLang
