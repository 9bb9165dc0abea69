import Chip8.Proofs.Image
import Chip8.Proofs.Listing
import Chip8.Proofs.Reachability
import Chip8.Proofs.Signals

/-!
# One run, one story

The events of a disassembly, its marks and its listing come from separate passes over
the image: the number of marked words is the length of the order of visits, the flags of
the events are looked up among the marks, and the listing looks them up again. The order
lists every marked index once, so all of them tell the same.
-/

namespace Chip8

theorem mapIdx_map_range {α β : Type} (f : Nat → α → β) (g : Nat → α) (n : Nat) :
    ((List.range n).map g).mapIdx f = (List.range n).map fun i => f i (g i) := by
  apply List.ext_getElem
  · simp
  · intro i _ _
    simp

namespace Config

theorem validate_of_outOfRange {c : Config} (h : 0xFFF < c.load.toNat) :
    c.validate = .error (.outOfRange c.load) := by
  have hlast : Address.last < c.load := UInt16.lt_iff_toNat_lt.mpr h
  rw [validate, if_pos hlast]

theorem validate_of_odd {c : Config} (h : c.load.toNat ≤ 0xFFF) (hodd : c.load.toNat % 2 = 1) :
    c.validate = .error (.unaligned c.load) := by
  have hlast : ¬Address.last < c.load := fun hlt => by
    have := UInt16.lt_iff_toNat_lt.mp hlt
    change 0xFFF < c.load.toNat at this
    omega
  have hone : c.load % 2 = 1 := by
    rw [← UInt16.toNat_inj, UInt16.toNat_mod]
    exact hodd
  rw [validate, if_neg hlast, if_pos hone]

end Config

namespace Report.Event

/-- The event says of a word that it is reached. -/
def saysReachable : Event → Bool
  | classified _ _ _ reachable => reachable
  | _ => false

end Report.Event

namespace Disassembly

/-- What a disassembly has to tell if all that comes out of it fits together, in terms of
the bytes, the load address and the marks. -/
structure TellsOneStory (config : Config) (bytes : Bytes) (d : Disassembly)
    (signals : List Signal) : Prop where
  analysis : d.reachability = Reachability.analyze
    ((List.range (bytes.size / 2)).map (Image.wordIn bytes)).toArray config.entry config.load
  events : Signal.events signals =
    [.analysisStarted (bytes.size / 2),
      .analysisFinished d.reachability.count (bytes.size / 2)] ++
    (List.range (bytes.size / 2)).map (fun i => .classified i (config.load.toNat + 2 * i)
      (Image.wordIn bytes i) (d.reachability.isReached i)) ++
    (Image.unpaired bytes).map .trailingByte
  lines : d.listing.lines.toList = (List.range (bytes.size / 2)).map fun i =>
    { address := config.load.toNat + 2 * i
      word := Image.wordIn bytes i
      kind := if d.reachability.isReached i then
        .code (Instruction.decode (Image.wordIn bytes i)) else .data }
  marks : d.reachability.count = d.reachability.reached.count true
  order : d.reachability.count = d.reachability.order.size
  reachableEvents : d.reachability.count =
    (Signal.events signals).countP Report.Event.saysReachable
  codeLines : d.reachability.count = d.listing.lines.countP Line.isCode

variable (config : Config) (bytes : Bytes)

theorem findings_ofBytes :
    (ofImage config (.ofBytes bytes)).findings =
      .analysisFinished (ofImage config (.ofBytes bytes)).reachability.count (bytes.size / 2) ::
        ((List.range (bytes.size / 2)).map (fun i => .classified i (config.load.toNat + 2 * i)
          (Image.wordIn bytes i) ((ofImage config (.ofBytes bytes)).reachability.isReached i)) ++
        (Image.unpaired bytes).map .trailingByte) := by
  have hsize : (ofImage config (.ofBytes bytes)).image.size = bytes.size / 2 :=
    Image.size_ofBytes bytes
  have hwords : (ofImage config (.ofBytes bytes)).image.words.toList = _ :=
    Image.toList_words_ofBytes bytes
  have htrailing : (ofImage config (.ofBytes bytes)).image.trailing.toList = _ :=
    Image.toList_trailing_ofBytes bytes
  rw [findings, hsize, hwords, mapIdx_map_range, htrailing]
  rfl

theorem events_ofBytes :
    (ofImage config (.ofBytes bytes)).events =
      [.analysisStarted (bytes.size / 2), .analysisFinished
        (ofImage config (.ofBytes bytes)).reachability.count (bytes.size / 2)] ++
      (List.range (bytes.size / 2)).map (fun i => .classified i (config.load.toNat + 2 * i)
        (Image.wordIn bytes i) ((ofImage config (.ofBytes bytes)).reachability.isReached i)) ++
      (Image.unpaired bytes).map .trailingByte := by
  have hsize : (ofImage config (.ofBytes bytes)).image.size = bytes.size / 2 :=
    Image.size_ofBytes bytes
  rw [events, findings_ofBytes, hsize]
  rfl

theorem lines_ofBytes :
    (ofImage config (.ofBytes bytes)).listing.lines.toList =
      (List.range (bytes.size / 2)).map fun i =>
        Listing.lineOf (ofImage config (.ofBytes bytes)).reachability config.load i
          (Image.wordIn bytes i) := by
  have hwords : (ofImage config (.ofBytes bytes)).image.words.toList = _ :=
    Image.toList_words_ofBytes bytes
  rw [listing, Listing.build, Array.toList_mapIdx, hwords, mapIdx_map_range]
  rfl

/-- The analysis of an image covers its words and counts its marks. -/
theorem size_reachability (image : Image) :
    (ofImage config image).reachability.size = image.size :=
  Reachability.size_analyze image.words config.entry config.load

theorem count_reachability (image : Image) :
    (ofImage config image).reachability.count =
      (ofImage config image).reachability.reached.count true :=
  (Reachability.invariant_finalWalk image.words config.entry config.load).count.symm

/-- The events say of as many words that they are reached as there are marks. -/
theorem countP_saysReachable_events :
    (ofImage config (.ofBytes bytes)).events.countP Report.Event.saysReachable =
      (ofImage config (.ofBytes bytes)).reachability.reached.count true := by
  have hsize : (ofImage config (.ofBytes bytes)).reachability.size = bytes.size / 2 := by
    rw [size_reachability, Image.size_ofBytes]
  have htrailing : ((Image.unpaired bytes).map Report.Event.trailingByte).countP
      Report.Event.saysReachable = 0 := by
    rw [List.countP_map, List.countP_eq_zero]
    exact fun _ _ => Bool.false_ne_true
  rw [events_ofBytes, List.countP_append, List.countP_append, List.countP_map, htrailing,
    ← Reachability.countP_isReached, hsize]
  simp only [List.countP_cons, List.countP_nil, Report.Event.saysReachable, Function.comp_def]
  simp

theorem tellsOneStory_ofBytes :
    TellsOneStory config bytes (ofImage config (.ofBytes bytes))
      (ofImage config (.ofBytes bytes)).signals where
  analysis := by
    rw [← Image.toList_words_ofBytes, Array.toArray_toList]
    rfl
  events := by
    rw [events_signals]
    exact events_ofBytes config bytes
  lines := lines_ofBytes config bytes
  marks := count_reachability config (.ofBytes bytes)
  order := rfl
  reachableEvents := by
    rw [events_signals, countP_saysReachable_events]
    exact count_reachability config (.ofBytes bytes)
  codeLines := by
    have hlines : (ofImage config (.ofBytes bytes)).listing.lines.countP Line.isCode = _ :=
      Listing.countP_isCode_lines_build config.load (size_reachability config (.ofBytes bytes))
    rw [hlines]
    exact count_reachability config (.ofBytes bytes)

/-- A run either refuses its configuration and tells nothing, where an address out of
range is refused as such even if it is odd, or it comes to a disassembly whose events,
marks and listing tell one story. -/
theorem disassemble_tells_one_story (config : Config) (bytes : Bytes) :
    (0xFFF < config.load.toNat →
      disassemble config bytes = .error (.outOfRange config.load) ∧
        told config bytes = []) ∧
    (config.load.toNat ≤ 0xFFF → config.load.toNat % 2 = 1 →
      disassemble config bytes = .error (.unaligned config.load) ∧
        told config bytes = []) ∧
    (config.load.toNat ≤ 0xFFF → config.load.toNat % 2 = 0 →
      ∃ d, disassemble config bytes = .ok d ∧
        TellsOneStory config bytes d (told config bytes)) := by
  refine ⟨?_, ?_, ?_⟩
  · intro hrange
    have hinvalid := Config.validate_of_outOfRange hrange
    exact ⟨disassemble_of_error hinvalid bytes, told_of_error hinvalid bytes⟩
  · intro hrange hodd
    have hinvalid := Config.validate_of_odd hrange hodd
    exact ⟨disassemble_of_error hinvalid bytes, told_of_error hinvalid bytes⟩
  · intro hrange heven
    have hvalid := config.validate_eq_ok_iff.mpr ⟨hrange, heven⟩
    rw [disassemble_of_ok hvalid, told_of_ok hvalid]
    exact ⟨_, rfl, tellsOneStory_ofBytes config bytes⟩

/-- Five bytes of which the first two are a jump to itself: one word of code, one of data
and a byte that is left over. -/
theorem disassemble_tells_of_five_bytes :
    ({} : Config).load.toNat ≤ 0xFFF ∧ ({} : Config).load.toNat % 2 = 0 ∧
      ∃ d, disassemble {} #[0x12, 0x00, 0xAB, 0xCD, 0xEF] = .ok d ∧ d.reachability.count = 1 ∧
        d.listing.lines.toList =
          [⟨0x200, 0x1200, .code (.jump 0x200)⟩, ⟨0x202, 0xABCD, .data⟩] := by
  obtain ⟨-, -, hvalid⟩ := disassemble_tells_one_story {} #[0x12, 0x00, 0xAB, 0xCD, 0xEF]
  obtain ⟨d, hd, story⟩ := hvalid (by decide) (by decide)
  obtain ⟨-, rfl⟩ := eq_of_disassemble hd
  have hreached : (ofImage {} (.ofBytes #[0x12, 0x00, 0xAB, 0xCD, 0xEF])).reachability.reached =
      #[true, false] := by decide +kernel
  refine ⟨by decide, by decide, _, hd, ?_, ?_⟩
  · rw [story.marks, hreached]
    rfl
  · rw [story.lines]
    simp only [Reachability.isReached, hreached]
    decide

end Disassembly

end Chip8
