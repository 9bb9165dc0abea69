import Chip8.Sink
import Mathlib.Tactic.SplitIfs

/-!
# Writing in pieces

However a text is cut into pieces, writing them one after the other stores the same bytes
as writing it at once, and it fails for the same cause. What a sink holds in the end and
how the writing ends can therefore be told from its room and the length of the whole text.
-/

namespace Chip8.Sink

variable (s : Sink)

theorem write_of_fits {chunk : Bytes} (h : s.room chunk.size = chunk.size) :
    s.write chunk = ({ s with stored := s.stored ++ chunk }, .ok ()) := by
  have hverdict : s.verdict chunk.size = .ok () := (s.verdict_eq_ok_iff _).mpr h
  simp only [write, h, hverdict, Array.extract_eq_self_of_le (Nat.le_refl chunk.size)]

theorem write_of_not_fits {chunk : Bytes} (h : s.room chunk.size < chunk.size) :
    s.write chunk =
      ({ s with stored := s.stored ++ chunk.take (s.room chunk.size) }, .error s.fullError) := by
  have hverdict : s.verdict chunk.size = .error s.fullError := if_pos h
  simp only [write, hverdict]

theorem write_empty : s.write #[] = (s, .ok ()) := by
  have hroom : s.room (#[] : Bytes).size = (#[] : Bytes).size := Nat.le_zero.mp (s.room_le 0)
  rw [s.write_of_fits hroom, Array.append_empty]

/-- The room of a sink that holds nothing yet. -/
theorem room_of_new (h : s.stored = #[]) (n : Nat) : s.room n = s.limit.elim n (min · n) := by
  cases hlimit : s.limit with
  | none => simp only [room, hlimit, Option.elim_none]
  | some limit =>
    simp only [room, hlimit, h, Array.size_empty, Nat.sub_zero, Option.elim_some]
    exact Nat.min_comm n limit

theorem room_eq_iff_of_new (h : s.stored = #[]) (n : Nat) :
    s.room n = n ↔ ∀ l ∈ s.limit, n ≤ l := by
  rw [s.room_of_new h]
  cases s.limit with
  | none => simp
  | some limit =>
    simp only [Option.mem_some_iff, forall_eq', Option.elim_some]
    omega

/-- What fits behind bytes that fit is what is left of the room. -/
theorem room_of_fits {a : Bytes} (h : s.room a.size = a.size) (n : Nat) :
    s.room (a.size + n) = a.size + ({ s with stored := s.stored ++ a } : Sink).room n := by
  unfold room at *
  cases hlimit : s.limit with
  | none => rfl
  | some limit =>
    rw [hlimit] at h
    simp only [Array.size_append] at h ⊢
    omega

/-- Behind bytes that do not fit there is no room for more. -/
theorem room_of_not_fits {m : Nat} (h : s.room m < m) (n : Nat) : s.room (m + n) = s.room m := by
  unfold room at *
  cases hlimit : s.limit with
  | none =>
    rw [hlimit] at h
    exact absurd h (Nat.lt_irrefl m)
  | some limit =>
    rw [hlimit] at h
    simp only at h ⊢
    omega

/-- Behind a piece that fits, the rest is written as if it were alone. -/
theorem write_append_of_fits {a : Bytes} (h : s.room a.size = a.size) (b : Bytes) :
    s.write (a ++ b) = ({ s with stored := s.stored ++ a } : Sink).write b := by
  have hroom := s.room_of_fits h b.size
  have htake : (a ++ b).take (s.room (a ++ b).size) =
      a ++ b.take (({ s with stored := s.stored ++ a } : Sink).room b.size) := by
    rw [Array.size_append, hroom, Array.take_eq_extract, Array.extract_append,
      Array.extract_eq_self_of_le (by omega), Nat.add_sub_cancel_left, Nat.zero_sub,
      ← Array.take_eq_extract]
  have hverdict : s.verdict (a ++ b).size =
      ({ s with stored := s.stored ++ a } : Sink).verdict b.size := by
    simp only [verdict, Array.size_append, hroom, Nat.add_lt_add_iff_left]
    rfl
  simp only [write, htake, hverdict, Array.append_assoc]

/-- A piece that does not fit is all that is written. -/
theorem write_append_of_not_fits {a : Bytes} (h : s.room a.size < a.size) (b : Bytes) :
    s.write (a ++ b) = s.write a := by
  have hroom := s.room_of_not_fits h b.size
  have htake : (a ++ b).take (s.room (a ++ b).size) = a.take (s.room a.size) := by
    have hnone : b.extract (0 - a.size) (s.room a.size - a.size) = #[] :=
      Array.extract_empty_of_stop_le_start (by omega)
    rw [Array.size_append, hroom, Array.take_eq_extract, Array.extract_append, hnone,
      Array.append_empty, ← Array.take_eq_extract]
  have hverdict : s.verdict (a ++ b).size = s.verdict a.size := by
    rw [verdict, verdict, Array.size_append, hroom, if_pos h, if_pos (by omega)]
  simp only [write, htake, hverdict]

/-- A write in two pieces: the second is written if the first succeeded. -/
theorem write_append (a b : Bytes) :
    s.write (a ++ b) =
      match s.write a with
      | (s', .ok ()) => s'.write b
      | (s', .error e) => (s', .error e) := by
  by_cases h : s.room a.size = a.size
  · rw [s.write_append_of_fits h, s.write_of_fits h]
  · have hle := s.room_le a.size
    have hlt : s.room a.size < a.size := by omega
    rw [s.write_append_of_not_fits hlt, s.write_of_not_fits hlt]

/-- Writes one chunk after the other and stops at the first failure. -/
def writeAll (s : Sink) : List Bytes → Sink × Except IoError Unit
  | [] => (s, .ok ())
  | chunk :: chunks =>
    match s.write chunk with
    | (s, .ok ()) => s.writeAll chunks
    | (s, .error e) => (s, .error e)

/-- Texts written one after the other are written as one text. -/
theorem writeAll_encode (texts : List String) :
    s.writeAll (texts.map Utf8.encode) = s.write (Utf8.encode (String.join texts)) := by
  induction texts generalizing s with
  | nil =>
    have hempty : Utf8.encode (String.join []) = #[] := by decide
    rw [hempty, s.write_empty]
    rfl
  | cons text texts ih =>
    -- for any sink, since the rest is written to what the first text leaves
    rw [List.map_cons, writeAll, String.join_cons, Utf8.encode_append, write_append]
    cases h : s.write (Utf8.encode text) with
    | mk s' outcome =>
      cases outcome with
      | ok u => exact ih s'
      | error e => rfl

/-- Writes texts one after the other and then flushes, up to the first failure. -/
def deliver (texts : List String) : Sink × Except IoError Unit :=
  match s.writeAll (texts.map Utf8.encode) with
  | (s, .ok ()) => s.flush
  | (s, .error e) => (s, .error e)

/-- The bytes of a delivery, cut at the room of the sink. -/
theorem stored_deliver (texts : List String) :
    (s.deliver texts).1.stored = s.stored ++ (Utf8.encode (String.join texts)).take
      (s.room (Utf8.encode (String.join texts)).size) := by
  rw [deliver, writeAll_encode, ← stored_write]
  cases h : s.write (Utf8.encode (String.join texts)) with
  | mk s' outcome =>
    cases outcome with
    | ok u => rfl
    | error e => rfl

/-- A delivery fails at the room of the sink, or else at its flush. -/
theorem snd_deliver (texts : List String) :
    (s.deliver texts).2 =
      if s.room (Utf8.encode (String.join texts)).size < (Utf8.encode (String.join texts)).size
      then .error s.fullError else s.flush.2 := by
  rw [deliver, writeAll_encode]
  split_ifs with h
  · rw [s.write_of_not_fits h]
  · have hle := s.room_le (Utf8.encode (String.join texts)).size
    rw [s.write_of_fits (by omega)]
    rfl

/-- A sink is flushed only behind a text that it has taken whole. -/
theorem flushes_deliver (texts : List String) :
    (s.deliver texts).1.flushes =
      if s.room (Utf8.encode (String.join texts)).size < (Utf8.encode (String.join texts)).size
      then s.flushes else s.flushes + 1 := by
  rw [deliver, writeAll_encode]
  split_ifs with h
  · rw [s.write_of_not_fits h]
  · have hle := s.room_le (Utf8.encode (String.join texts)).size
    rw [s.write_of_fits (by omega)]
    rfl

/-- A text is delivered alike in whatever pieces it comes. -/
theorem deliver_congr {texts texts' : List String} (h : String.join texts = String.join texts') :
    s.deliver texts = s.deliver texts' := by
  rw [deliver, deliver, writeAll_encode, writeAll_encode, h]

/-- Every write and every flush succeeds. -/
structure NeverFails : Prop where
  limit : s.limit = none
  flushError : s.flushError = none

theorem neverFails_unlimited : NeverFails unlimited := ⟨rfl, rfl⟩

namespace NeverFails

variable {s : Sink} (h : s.NeverFails)

include h

theorem write (chunk : Bytes) : s.write chunk = ({ s with stored := s.stored ++ chunk }, .ok ()) :=
  s.write_unlimited chunk h.limit

theorem flush : s.flush = ({ s with flushes := s.flushes + 1 }, .ok ()) := by
  simp only [Sink.flush, h.flushError]

theorem snd_deliver (texts : List String) : (s.deliver texts).2 = .ok () := by
  have hroom : ∀ n, s.room n = n := by
    intro n
    simp only [room, h.limit]
  rw [Sink.snd_deliver, hroom, if_neg (Nat.lt_irrefl _), h.flush]

end NeverFails

/-- A sink without end takes every text. -/
theorem snd_deliver_unlimited (texts : List String) : (unlimited.deliver texts).2 = .ok () :=
  neverFails_unlimited.snd_deliver texts

/-- A delivery that succeeds has stored the whole text. -/
theorem stored_deliver_of_ok {texts : List String} (h : (s.deliver texts).2 = .ok ()) :
    (s.deliver texts).1.stored = s.stored ++ Utf8.encode (String.join texts) := by
  rw [snd_deliver] at h
  split_ifs at h with hroom
  rw [stored_deliver, Array.take_eq_extract, Array.extract_eq_self_of_le (by omega)]

end Chip8.Sink
