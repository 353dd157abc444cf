import WordMachine.Text
import WordMachine.Text.Mark
import WordMachine.Text.Vacant

/-! # Visible characters

Which characters a reader can tell apart on a page when they stand alone. A vacant code
point has no shape, a combining mark changes the shape before it, and a silent character
leaves nothing or only room.
-/

namespace WordMachine

namespace Text

/-- The characters that leave nothing or only room: controls, separators other than the
space, format characters and the letters that fill an empty place of a Hangul syllable. -/
def silentRanges : List (Nat × Nat) :=
  [(0x0, 0x1F), (0x7F, 0xA0), (0xAD, 0xAD), (0x600, 0x605), (0x61C, 0x61C), (0x6DD, 0x6DD),
    (0x70F, 0x70F), (0x890, 0x891), (0x8E2, 0x8E2), (0x115F, 0x1160), (0x1680, 0x1680),
    (0x180E, 0x180E), (0x2000, 0x200F), (0x2028, 0x202F), (0x205F, 0x2064), (0x2066, 0x206F),
    (0x3000, 0x3000), (0x3164, 0x3164), (0xFEFF, 0xFEFF), (0xFFA0, 0xFFA0), (0xFFF9, 0xFFFB),
    (0x110BD, 0x110BD), (0x110CD, 0x110CD), (0x13430, 0x1343F), (0x1BCA0, 0x1BCA3),
    (0x1D173, 0x1D17A), (0xE0001, 0xE0001), (0xE0020, 0xE007F)]

/-- A character without a trace of its own. -/
def isSilent (c : Char) : Bool :=
  inRanges silentRanges c

/-- A mark that a reader sees as part of the character before it. -/
def isMark (c : Char) : Bool :=
  inRanges (if c.toNat < 0x10000 then markBasicRanges else markSupplementaryRanges) c

/-- A code point that no character has. -/
def isVacant (c : Char) : Bool :=
  inRanges (if c.toNat < 0x10000 then vacantBasicRanges else vacantSupplementaryRanges) c

/-- A visible character shows itself when it stands alone. -/
def isVisible (c : Char) : Bool :=
  !(isSilent c || isMark c || isVacant c)

end Text

end WordMachine
