import FieldShader.Text.Blank

/-!
# Control sequences

A terminal takes some characters as commands: control characters, and the sequences that the escape
character starts, such as the colors. `withoutControls` leaves only what is text. A sequence ends
with its final character, or where a control character breaks it off, and until then everything in
it is dropped, with one exception: a blank that the sequence lets through interrupts it, and the
text from there on is kept up to the next control character.

Commands are made of bytes. Of the characters that are made of several bytes only those that hold
the byte which ends a control string matter inside a sequence.
-/

namespace FieldShader

/-- How far the sequence has come in which a character is met. -/
inductive ControlState where
  /-- No sequence. -/
  | ground
  /-- After the escape character. -/
  | escape
  /-- After a character that announces a short command. -/
  | announced
  /-- In a control sequence: parameters up to a final character. -/
  | sequence
  /-- At the start of a device control string. -/
  | device
  /-- In the parameters of a device control string. -/
  | deviceParameters
  /-- Between the parameters of a device control string and its contents. -/
  | deviceAnnounced
  /-- In a system command, which the bell ends. -/
  | command
  /-- In any other control string. -/
  | text
deriving DecidableEq

/-- Whether a character is from the first to the last of a range. -/
def isBetween (first last c : Char) : Bool := first ≤ c && c ≤ last

/-- Whether a character is a blank among the control characters that is no command. -/
def isLayout (c : Char) : Bool := c = '\t' || c = '\n' || c = '\x0c' || c = '\r'

/-- Whether a character outside sequences is text. -/
def isText (c : Char) : Bool := isLayout c || isBetween ' ' '~' c || '\x80' ≤ c

/-- Whether the byte that ends a control string is part of the character. -/
def holdsTerminator (c : Char) : Bool :=
  (String.singleton c).toUTF8.toList.any (· = 0x9C)

namespace ControlState

/-- Whether control characters have their own effect although the sequence goes on. -/
def letsThrough : ControlState → Bool
  | .ground | .escape | .announced | .sequence => true
  | .device | .deviceParameters | .deviceAnnounced | .command | .text => false

/-- The state after a character that is not kept. -/
def next (s : ControlState) (c : Char) : ControlState :=
  if c = '\x18' ∨ c = '\x1a' then .ground
  else if c = '\x1b' then .escape
  else
    match s with
    | .ground => .ground
    | .escape =>
      if isBetween ' ' '/' c then .announced
      else if c = '[' then .sequence
      else if c = ']' then .command
      else if c = 'P' then .device
      else if c = 'X' ∨ c = '^' ∨ c = '_' then .text
      else if isBetween '0' '~' c then .ground
      else .escape
    | .announced => if isBetween '0' '~' c then .ground else .announced
    | .sequence => if isBetween '@' '~' c then .ground else .sequence
    | .device =>
      if isBetween ' ' '/' c then .deviceAnnounced
      else if isBetween '0' '?' c then .deviceParameters
      else if isBetween '@' '~' c then .text
      else .device
    | .deviceParameters =>
      if isBetween ' ' '/' c then .deviceAnnounced
      else if isBetween '<' '~' c then .text
      else .deviceParameters
    | .deviceAnnounced => if isBetween '0' '~' c then .text else .deviceAnnounced
    | .command => if c = '\x07' then .ground else .command
    | .text => if holdsTerminator c then .ground else .text

end ControlState

/-- The text among characters that are met in a state; the second argument says whether its
sequence is interrupted. -/
def textFrom (s : ControlState) (interrupted : Bool) : List Char → List Char
  | [] => []
  | c :: rest =>
    if (s = .ground ∨ interrupted) ∧ isText c then
      c :: textFrom (if '\x80' ≤ c then .ground else s) interrupted rest
    else if s.letsThrough ∧ isLayout c then c :: textFrom s true rest
    else textFrom (s.next c) false rest

/-- A text without its control sequences. -/
def withoutControls (s : List Char) : List Char := textFrom .ground false s

/-- Characters that are all text are all kept. -/
theorem withoutControls_of_isText {s : List Char} (h : ∀ c ∈ s, isText c = true) :
    withoutControls s = s := by
  rw [withoutControls]
  induction s with
  | nil => rfl
  | cons c rest ih =>
    have hc := h c List.mem_cons_self
    have hrest := ih fun x hx => h x (List.mem_cons_of_mem _ hx)
    rw [textFrom, if_pos ⟨.inl rfl, hc⟩]
    split <;> rw [hrest]

/-- A color, a title, a control character, and a sequence that a line feed interrupts. -/
example : withoutControls "\x1b[31mred\x1b[0m".toList = "red".toList ∧
    withoutControls "\x1b]0;title\x07a\x08b".toList = "ab".toList ∧
    withoutControls "\x1b[1\nm\x01;2mc".toList = "\nmc".toList := by decide +kernel

end FieldShader
