import TypedScheme.Text.Emoji

/-!
Columns that texts take on a terminal. Some characters are shown as one with what follows them:
letters that join, flags, and emoji built from several characters. A text is therefore read from its
end, with a context that says what follows.
-/

namespace TypedScheme

namespace Text

/-- Code points of width zero that a joining Arabic letter does not see through. -/
def nonJoiningRanges : List (Nat × Nat) := [
  (0x605, 0x605), (0x890, 0x891), (0x8e2, 0x8e2), (0x9be, 0x9be), (0x9d7, 0x9d7), (0xb3e, 0xb3e),
  (0xb57, 0xb57), (0xbbe, 0xbbe), (0xbd7, 0xbd7), (0xcc0, 0xcc0), (0xcc2, 0xcc2), (0xcc7, 0xcc8),
  (0xcca, 0xccb), (0xcd5, 0xcd6), (0xd3e, 0xd3e), (0xd4e, 0xd4e), (0xd57, 0xd57), (0xdcf, 0xdcf),
  (0xddf, 0xddf), (0x1160, 0x11ff), (0x1715, 0x1715), (0x1734, 0x1734), (0x180e, 0x180e),
  (0x1b35, 0x1b35), (0x1b3b, 0x1b3b), (0x1b3d, 0x1b3d), (0x1b43, 0x1b44), (0x1baa, 0x1baa),
  (0x1bf2, 0x1bf3), (0x200c, 0x200d), (0x2065, 0x2069), (0x302e, 0x302f), (0x3164, 0x3164),
  (0xa8fa, 0xa8fa), (0xa953, 0xa953), (0xa9c0, 0xa9c0), (0xd7b0, 0xd7c6), (0xd7cb, 0xd7fb),
  (0xff9e, 0xffa0), (0xfff0, 0xfff8), (0x111c0, 0x111c0), (0x111c2, 0x111c3), (0x11235, 0x11235),
  (0x1133e, 0x1133e), (0x1134d, 0x1134d), (0x11357, 0x11357), (0x113b8, 0x113b8),
  (0x113c2, 0x113c2), (0x113c5, 0x113c5), (0x113c7, 0x113c9), (0x113cf, 0x113cf),
  (0x113d1, 0x113d1), (0x114b0, 0x114b0), (0x114bd, 0x114bd), (0x115af, 0x115af),
  (0x116b6, 0x116b6), (0x11930, 0x11930), (0x1193d, 0x1193d), (0x1193f, 0x1193f),
  (0x11941, 0x11941), (0x11a84, 0x11a89), (0x11d46, 0x11d46), (0x11f02, 0x11f02),
  (0x11f41, 0x11f41), (0x16ff0, 0x16ff1), (0x1d165, 0x1d166), (0x1d16d, 0x1d172),
  (0xe0000, 0xe0000), (0xe0002, 0xe001f), (0xe0080, 0xe00ff), (0xe01f0, 0xe0fff)]

/-- Does an Arabic letter join the letter behind this character? -/
def isTransparent (c : Char) : Bool :=
  charWidth c = 0 && !inRanges nonJoiningRanges c.toNat

/-- Invisible characters between the parts of a ligature. -/
def isInvisible (c : Char) : Bool :=
  inRanges [(0x34f, 0x34f), (0x17b4, 0x17b5), (0x180b, 0x180d), (0x180f, 0x180f),
    (0x200d, 0x200d), (0xfe00, 0xfe0f), (0xe0100, 0xe01ef)] c.toNat

def isJoiner (c : Char) : Bool := c.toNat = 0x200d

def isLam (c : Char) : Bool :=
  inRanges [(0x644, 0x644), (0x6b5, 0x6b8), (0x76a, 0x76a), (0x8a6, 0x8a6), (0x8c7, 0x8c7)] c.toNat

def isAlef (c : Char) : Bool :=
  inRanges [(0x622, 0x623), (0x625, 0x625), (0x627, 0x627), (0x671, 0x673), (0x675, 0x675),
    (0x773, 0x774), (0x870, 0x882)] c.toNat

def isTifinaghConsonant (c : Char) : Bool := inRanges [(0x2d31, 0x2d65), (0x2d6f, 0x2d6f)] c.toNat

/-- Khmer letters that have a form below the letter before them. -/
def isKhmerSubscript (c : Char) : Bool :=
  inRanges [(0x1780, 0x1782), (0x1784, 0x1787), (0x1789, 0x178c), (0x178e, 0x1793),
    (0x1795, 0x1798), (0x179b, 0x179d), (0x17a0, 0x17a0), (0x17a2, 0x17a2), (0x17a7, 0x17a7),
    (0x17ab, 0x17ac), (0x17af, 0x17af)] c.toNat

def isLisuTone (c : Char) : Bool := inRanges [(0xa4f8, 0xa4fb)] c.toNat

def isLisuSecondTone (c : Char) : Bool := inRanges [(0xa4fc, 0xa4fd)] c.toNat

def isTagLetter (c : Char) : Bool := inRanges [(0xe0061, 0xe007a)] c.toNat

def isTagDigit (c : Char) : Bool := inRanges [(0xe0030, 0xe0039)] c.toNat

def isQuotationMark (c : Char) : Bool := inRanges [(0x2018, 0x2019), (0x201c, 0x201d)] c.toNat

/-- The end of a ligature, which waits for its beginning. -/
inductive LigatureEnd where
  /-- Arabic alef, after lam. -/
  | alef
  /-- Hebrew lamed, joined to alef. -/
  | lamed
  /-- A Khmer letter, after the sign that puts it below another. -/
  | khmer
  /-- Buginese ya, joined to a vowel sign. -/
  | ya
  /-- Buginese ya with its vowel sign, after its vowel. -/
  | vowelYa
  /-- A Tifinagh consonant, joined to another or after the consonant joiner. -/
  | tifinagh
  /-- A Tifinagh consonant with the consonant joiner, after another consonant. -/
  | joinedTifinagh
  /-- The second tone letter of a Lisu syllable. -/
  | lisuTone
  /-- An Old Turkic letter, joined to another. -/
  | orkhon
deriving DecidableEq, Repr

/-- A part of an emoji, to be joined to what stands before it. -/
inductive JoinedEmoji where
  /-- Nothing but the joiner. -/
  | joiner
  /-- A keycap. -/
  | keycap
  /-- One region letter. -/
  | letter
  /-- Region letters that are flags, two by two. -/
  | flags
  /-- Flags, and one region letter before them. -/
  | letterAndFlags
  /-- The tags that name the region of a flag, so many letters and before them so many digits. -/
  | tags (letters digits : Nat)
deriving DecidableEq, Repr

/-- What follows a character, as far as it changes the columns of the two. -/
inductive Following where
  | other
  | lineFeed
  | ligature (last : LigatureEnd) (linked : Bool)
  | emoji
  | skinTone
  | regionLetter
  | regionLetters
  | joined (part : JoinedEmoji)
  /-- The Kirat Rai vowel sign E. -/
  | kiratRaiE
  /-- The Kirat Rai vowel sign AI. -/
  | kiratRaiAi
deriving DecidableEq, Repr

/-- A character that selects a form of the one before it. -/
inductive Selector where
  | picture
  | text
  | wide
deriving DecidableEq, Repr

def Selector.ofChar? (c : Char) : Option Selector :=
  if c.toNat = 0xfe0f then some .picture
  else if c.toNat = 0xfe0e then some .text
  else if c.toNat = 0xfe01 then some .wide
  else none

/-- How the end of a ligature takes the character before it: the columns added, and what follows
now. -/
def LigatureEnd.join (last : LigatureEnd) (linked : Bool) (c : Char) : Option (Int × Following) :=
  match last with
  | .alef =>
      if isLam c then some (0, .other)
      else if isTransparent c then some (0, .ligature .alef linked)
      else none
  | .lamed => if linked && c.toNat = 0x5d0 then some (0, .other) else none
  | .khmer => if c.toNat = 0x17d2 then some (-1, .other) else none
  | .ya => if linked && c.toNat = 0x1a17 then some (0, .ligature .vowelYa false) else none
  | .vowelYa => if c.toNat = 0x1a15 then some (0, .other) else none
  | .tifinagh =>
      if c.toNat = 0x2d7f then some (1, .ligature .joinedTifinagh false)
      else if linked && isTifinaghConsonant c then some (0, .other)
      else none
  | .joinedTifinagh => if isTifinaghConsonant c then some (-1, .other) else none
  | .lisuTone => if isLisuTone c then some (0, .other) else none
  | .orkhon => if linked && c.toNat = 0x10c32 then some (0, .other) else none

/-- How a part of an emoji takes the character before it. -/
def JoinedEmoji.join (part : JoinedEmoji) (c : Char) : Option (Int × Following) :=
  match part with
  | .joiner =>
      if c.toNat = 0x20e3 then some (0, .joined .keycap)
      else if isRegionLetter c then some (1, .joined .letter)
      else if c.toNat = 0xe007f then some (0, .joined (.tags 0 0))
      else if isSkinTone c then some (0, .skinTone)
      else if isEmoji c then some (0, .emoji)
      else none
  | .keycap => none
  | .letter => if isRegionLetter c then some (-1, .joined .flags) else none
  | .flags =>
      if isRegionLetter c then some (3, .joined .letterAndFlags)
      else if isJoiner c then some (0, .joined .joiner)
      else none
  | .letterAndFlags =>
      if isRegionLetter c then some (-1, .joined .flags)
      else if isJoiner c then some (0, .joined .joiner)
      else none
  | .tags letters digits =>
      if isTagLetter c && digits = 0 && letters < 6 then some (0, .joined (.tags (letters + 1) 0))
      else if isTagDigit c && letters ≤ 4 && digits < 3 then
        some (0, .joined (.tags letters (digits + 1)))
      else if c.toNat = 0x1f3f4 && ((3 ≤ letters && digits = 0) || digits = 3) then some (0, .emoji)
      else none

/-- How what follows takes the character before it, if the two are shown as one. -/
def Following.join (following : Following) (c : Char) : Option (Int × Following) :=
  match following with
  | .ligature last linked =>
      if last ≠ .alef && isInvisible c then some (0, .ligature last (linked || isJoiner c))
      else last.join linked c
  | .emoji => if isJoiner c then some (0, .joined .joiner) else none
  | .skinTone =>
      if isJoiner c then some (0, .joined .joiner)
      else if takesSkinTone c then some (0, .emoji)
      else none
  | .regionLetter => if isRegionLetter c then some (1, .regionLetters) else none
  | .regionLetters =>
      if isRegionLetter c then some (1, .regionLetters)
      else if isJoiner c then some (0, .joined .joiner)
      else none
  | .joined part => part.join c
  | .kiratRaiE =>
      if c.toNat = 0x16d63 || c.toNat = 0x16d69 then some (0, .other)
      else if c.toNat = 0x16d67 then some (0, .kiratRaiAi)
      else if c.toNat = 0x16d68 then some (1, .kiratRaiE)
      else none
  | .kiratRaiAi => if c.toNat = 0x16d63 then some (0, .other) else none
  | .lineFeed | .other => none

/-- What a character is to the one before it. -/
def Following.ofChar (c : Char) : Following :=
  if isLisuSecondTone c then .ligature .lisuTone false
  else if c.toNat = 0x10c03 then .ligature .orkhon false
  else if c.toNat = 0x16d67 then .kiratRaiE
  else if c.toNat = 0x16d68 then .kiratRaiAi
  else if isRegionLetter c then .regionLetter
  else if isSkinTone c then .skinTone
  else if isTifinaghConsonant c then .ligature .tifinagh false
  else if c.toNat = 0x5dc then .ligature .lamed false
  else if isAlef c then .ligature .alef false
  else if isKhmerSubscript c then .ligature .khmer false
  else if c.toNat = 0x1a10 then .ligature .ya false
  else if isEmoji c then .emoji
  else .other

/-- What follows a selector, seen from before it: only the end of a ligature counts. -/
def Following.pastSelector : Following → Following
  | .ligature last linked => .ligature last linked
  | _ => .other

/-- Is this a joined emoji that takes a picture before it? -/
def Following.takesPicture : Following → Bool
  | .joined .joiner | .joined .keycap => true
  | _ => false

/-- What follows a place in a text, and the selector that stands right behind the place. -/
structure Context where
  following : Following
  selector : Option Selector
deriving DecidableEq, Repr

namespace Context

/-- The context at the end of a text. -/
def atEnd : Context := ⟨.other, none⟩

/-- What follows, where no use is made of the selector. -/
def unselected (context : Context) : Following :=
  if context.selector.isSome then context.following.pastSelector else context.following

/-- The context before a selector. -/
def select (context : Context) (selector : Selector) : Context :=
  let following := context.unselected
  if selector = .picture && following.takesPicture then ⟨following, some selector⟩
  else ⟨following.pastSelector, some selector⟩

/-- The columns that a character adds to the text behind it, and the context before it. -/
def before (context : Context) (c : Char) : Int × Context :=
  if context.selector = some .picture && hasPictureForm c then
    (if context.following.takesPicture then 0 else 2, ⟨.emoji, none⟩)
  else if c = '\n' then (1, ⟨.lineFeed, none⟩)
  else if c = '\r' && context.following = .lineFeed then (0, atEnd)
  else if c.toNat ≤ 0xa0 then (1, atEnd)
  else
    match Selector.ofChar? c with
    | some selector => (0, context.select selector)
    | none =>
        if context.selector = some .text && hasTextForm c then (1, atEnd)
        else if context.selector = some .wide && isQuotationMark c then (2, atEnd)
        else
          match context.unselected.join c with
          | some (columns, following) => (columns, ⟨following, none⟩)
          | none => (charWidth c, ⟨Following.ofChar c, none⟩)

end Context

/-- Columns of a sequence of characters, and the context before it. -/
def measure (cs : List Char) : Int × Context :=
  cs.foldr
    (fun c (columns, context) =>
      let (added, context) := context.before c
      (columns + added, context))
    (0, .atEnd)

/-- Columns of a text on one line. An ASCII text takes a column for each character. -/
def width (s : String) : Nat :=
  let cs := s.toList
  if cs.all isAscii then cs.length else (measure cs).1.toNat

end Text

end TypedScheme
