import Parley.Text.Property

/-!
# Quoted text

A text in double quotes, in which quotes, backslashes and characters that cannot be seen on their
own are written as escapes.
-/

namespace Parley.Text

/-- Spacing marks that combine with the character before them. -/
def combiningSpans : List Span :=
  [⟨0x9BE, 0x9BE, 1⟩, ⟨0x9D7, 0x9D7, 1⟩, ⟨0xB3E, 0xB3E, 1⟩, ⟨0xB57, 0xB57, 1⟩, ⟨0xBBE, 0xBBE, 1⟩,
   ⟨0xBD7, 0xBD7, 1⟩, ⟨0xCC0, 0xCC2, 2⟩, ⟨0xCC7, 0xCC8, 1⟩, ⟨0xCCA, 0xCCB, 1⟩, ⟨0xCD5, 0xCD6, 1⟩,
   ⟨0xD3E, 0xD3E, 1⟩, ⟨0xD57, 0xD57, 1⟩, ⟨0xDCF, 0xDCF, 1⟩, ⟨0xDDF, 0xDDF, 1⟩,
   ⟨0x1715, 0x1715, 1⟩, ⟨0x1734, 0x1734, 1⟩, ⟨0x1B35, 0x1B35, 1⟩, ⟨0x1B3B, 0x1B3D, 2⟩,
   ⟨0x1B43, 0x1B44, 1⟩, ⟨0x1BAA, 0x1BAA, 1⟩, ⟨0x1BF2, 0x1BF3, 1⟩, ⟨0x302E, 0x302F, 1⟩,
   ⟨0xA953, 0xA953, 1⟩, ⟨0xA9C0, 0xA9C0, 1⟩, ⟨0xFF9E, 0xFF9F, 1⟩, ⟨0x111C0, 0x111C0, 1⟩,
   ⟨0x11235, 0x11235, 1⟩, ⟨0x1133E, 0x1133E, 1⟩, ⟨0x1134D, 0x1134D, 1⟩, ⟨0x11357, 0x11357, 1⟩,
   ⟨0x113B8, 0x113B8, 1⟩, ⟨0x113C2, 0x113C2, 1⟩, ⟨0x113C5, 0x113C7, 2⟩, ⟨0x113C8, 0x113C9, 1⟩,
   ⟨0x113CF, 0x113CF, 1⟩, ⟨0x114B0, 0x114B0, 1⟩, ⟨0x114BD, 0x114BD, 1⟩, ⟨0x115AF, 0x115AF, 1⟩,
   ⟨0x116B6, 0x116B6, 1⟩, ⟨0x11930, 0x11930, 1⟩, ⟨0x1193D, 0x1193D, 1⟩, ⟨0x11F41, 0x11F41, 1⟩,
   ⟨0x16FF0, 0x16FF1, 1⟩, ⟨0x1D165, 0x1D166, 1⟩, ⟨0x1D16D, 0x1D172, 1⟩, ⟨0xE0020, 0xE007F, 1⟩]

/-- Whether a character combines with the one before it. -/
def isCombining (c : Char) : Bool :=
  GeneralCategory.anyHas [.nonspacingMark, .enclosingMark] c || Spans.has combiningSpans c.toNat

/-- Whether a character can be seen: it is a space, or assigned and neither a separator nor a
control, format or private-use character. -/
def isVisible (c : Char) : Bool :=
  c == ' ' ||
  !GeneralCategory.anyHas
    [.control, .format, .privateUse, .lineSeparator, .paragraphSeparator, .spaceSeparator] c &&
  GeneralCategory.anyHas GeneralCategory.all c

/-- A character as it is written between double quotes. -/
def quoteChar (c : Char) : List Char :=
  match c with
  | '\x00' => ['\\', '0']
  | '\t' => ['\\', 't']
  | '\r' => ['\\', 'r']
  | '\n' => ['\\', 'n']
  | '"' => ['\\', '"']
  | '\\' => ['\\', '\\']
  | c =>
    if isCombining c || !isVisible c then
      ['\\', 'u', '\x7b'] ++ Nat.toDigits 16 c.toNat ++ ['\x7d']
    else [c]

/-- A text between double quotes. -/
def quote (s : String) : String :=
  String.ofList ('"' :: s.toList.flatMap quoteChar ++ ['"'])

end Parley.Text
