/-!
# Text without terminal sequences

A terminal takes some characters as orders and not as text: control characters,
and the sequences that an escape character begins. This removes them. Sequences
follow the usual states of a terminal: an escape sequence, a control sequence
with its parameters, a device string, a system string and a plain string. Blanks
that only move within the text stay: tab, line feed, form feed, carriage return.
-/

namespace Chip8.Terminal

/-- How far a terminal is within a sequence. -/
inductive State where
  | ground
  | escape | escapeMiddle
  | control | controlParameter | controlMiddle | controlIgnored
  | device | deviceParameter | deviceMiddle | deviceIgnored | deviceString
  | systemString
  | plainString
deriving DecidableEq, Repr

namespace State

/-- Whether control characters are obeyed in this state and not part of a string. -/
def obeys : State → Bool
  | ground | escape | escapeMiddle | control | controlParameter | controlMiddle
  | controlIgnored => true
  | _ => false

def isMiddle (n : Nat) : Bool := 0x20 ≤ n && n ≤ 0x2F

def isFinal (n : Nat) : Bool := 0x40 ≤ n && n ≤ 0x7E

/-- The state after an ASCII character that no state treats in its own way. -/
def afterUsual : State → Nat → State
  | ground, _ => ground
  | escape, n =>
    if isMiddle n then escapeMiddle
    else if n = 0x5B then control
    else if n = 0x5D then systemString
    else if n = 0x50 then device
    else if n = 0x58 ∨ n = 0x5E ∨ n = 0x5F then plainString
    else if 0x30 ≤ n ∧ n ≤ 0x7E then ground
    else escape
  | escapeMiddle, n => if 0x30 ≤ n ∧ n ≤ 0x7E then ground else escapeMiddle
  | control, n =>
    if isMiddle n then controlMiddle
    else if 0x30 ≤ n ∧ n ≤ 0x3F then controlParameter
    else if isFinal n then ground
    else control
  | controlParameter, n =>
    if isMiddle n then controlMiddle
    else if 0x3C ≤ n ∧ n ≤ 0x3F then controlIgnored
    else if isFinal n then ground
    else controlParameter
  | controlMiddle, n =>
    if 0x30 ≤ n ∧ n ≤ 0x3F then controlIgnored
    else if isFinal n then ground
    else controlMiddle
  | controlIgnored, n => if isFinal n then ground else controlIgnored
  | device, n =>
    if isMiddle n then deviceMiddle
    else if 0x30 ≤ n ∧ n ≤ 0x3F then deviceParameter
    else if isFinal n then deviceString
    else device
  | deviceParameter, n =>
    if isMiddle n then deviceMiddle
    else if 0x3C ≤ n ∧ n ≤ 0x3F then deviceIgnored
    else if isFinal n then deviceString
    else deviceParameter
  | deviceMiddle, n =>
    if 0x30 ≤ n ∧ n ≤ 0x3F then deviceIgnored
    else if isFinal n then deviceString
    else deviceMiddle
  | systemString, n => if n = 7 then ground else systemString
  | deviceIgnored, _ => deviceIgnored
  | deviceString, _ => deviceString
  | plainString, _ => plainString

/-- A device string or a plain string ends at the byte 9C, which may be a byte of
a longer character. -/
def afterLong (s : State) (c : Char) : State :=
  match s with
  | deviceIgnored | deviceString | plainString =>
    if (String.utf8EncodeChar c).contains 0x9C then ground else s
  | _ => s

/-- The state after a character. An escape character begins anew and two others
give up the sequence, whatever the state. -/
def after (s : State) (c : Char) : State :=
  if c.toNat = 0x1B then escape
  else if c.toNat = 0x18 ∨ c.toNat = 0x1A then ground
  else if c.toNat < 0x80 then s.afterUsual c.toNat
  else s.afterLong c

end State

def isSpacing (c : Char) : Bool := c = '\t' || c = '\n' || c.toNat = 0x0C || c = '\r'

def isVisible (c : Char) : Bool := 0x20 ≤ c.toNat && c.toNat ≠ 0x7F

/-- Whether a character is text in this state. -/
def isText (s : State) (c : Char) : Bool :=
  (s = .ground && isVisible c) || (s.obeys && isSpacing c)

/-- The text among characters. While text is running, what would be text outside
of all sequences goes on with it, and a state that was not left by then comes
back afterwards. -/
def visible (s : State) (running : Bool) : List Char → List Char
  | [] => []
  | c :: cs =>
    if running && isText .ground c then
      c :: visible (if c.toNat < 0x80 then s else .ground) true cs
    else if isText s c then c :: visible s true cs
    else visible (s.after c) false cs

def plain (s : String) : String := String.ofList (visible .ground false s.toList)

theorem visible_of_isText (running : Bool) (cs : List Char)
    (h : ∀ c ∈ cs, isText .ground c = true) : visible .ground running cs = cs := by
  induction cs generalizing running with
  | nil => rfl
  | cons c cs ih =>
    have hc := h c (List.mem_cons_self ..)
    have hcs := fun running => ih running fun d hd => h d (List.mem_cons_of_mem _ hd)
    cases running <;> simp [visible, hc, hcs]

example : plain "a\x1b[31mb\x07" = "ab" := by decide
example : plain "x\x1b]0;t\x07y\x1bP1q\x1b\\z" = "xyz" := by decide

end Chip8.Terminal
