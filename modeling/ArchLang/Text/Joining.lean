/-!
# Joining words

Two ways to make a text of words.  `joinPhrase` puts one space between any two words and keeps
empty ones; `joinParts` leaves empty parts out first, so that an absent part costs no space.
-/

namespace ArchLang

/-- The words with one space between any two. -/
def joinPhrase (words : List String) : String := " ".intercalate words

/-- The parts that are not empty, with one space between any two. -/
def joinParts (parts : List String) : String := joinPhrase (parts.filter (· ≠ ""))

end ArchLang
