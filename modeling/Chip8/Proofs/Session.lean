import Chip8.Session
import Chip8.Proofs.Job
import Chip8.Proofs.Json.Session

/-!
# Sessions

A session remembers the load address and nothing else, so a reply depends on the request
and on the address that was set last. What it answers for a program is what the program's
listing, its words and its events are, and a job for the same program tells the same.
-/

namespace Chip8

theorem Listing.map_word_lines_build (words : Array Word) (r : Reachability) (load : UInt16) :
    (build words r load).lines.map Line.word = words := by
  apply Array.ext_getElem?
  intro i
  rw [Array.getElem?_map, getElem?_lines_build, Option.map_map]
  exact Option.map_id'

namespace Report.Event

/-- The numbers of an event that have no bound of their own. -/
def numbers : Event → List Nat
  | analysisStarted words => [words]
  | analysisFinished reachable total => [reachable, total]
  | classified index address _ _ => [index, address]
  | trailingByte _ => []

/-- The event is about one word. -/
def isClassified : Event → Bool
  | classified .. => true
  | _ => false

end Report.Event

namespace Session

/-! ## What a session remembers -/

def Request.load? : Request → Option UInt16
  | .setLoad load => some load
  | _ => none

/-- The load address that these requests set last, or else the usual one. -/
def loadSet (requests : List Request) : UInt16 :=
  (requests.filterMap Request.load?).getLast?.getD 0x200

theorem load_foldl_after (s : Session) (requests : List Request) :
    (requests.foldl after s).load = (requests.filterMap Request.load?).getLast?.getD s.load := by
  induction requests generalizing s with
  | nil => rfl
  | cons request requests ih =>
    rw [List.foldl_cons, ih]
    cases request with
    | setLoad load => simp [after, Request.load?, List.getLast?_cons]
    | _ => simp [after, Request.load?]

theorem foldl_after_eq (requests : List Request) :
    requests.foldl after {} = { load := loadSet requests } :=
  congrArg Session.mk (load_foldl_after {} requests)

/-- Each request is answered by what the session has become by then. -/
theorem getElem?_replies {V : Type} (convert : Result → Except V V) (s : Session)
    (requests : List Request) (k : Nat) :
    (s.replies convert requests)[k]? =
      requests[k]?.map (((requests.take k).foldl after s).reply convert) := by
  induction requests generalizing s k with
  | nil => rfl
  | cons request requests ih =>
    cases k with
    | zero => rfl
    | succ k => exact ih (s.after request) k

/-! ## What can be handed over -/

/-- The numbers of a result that have no bound of their own are below 2 to the power of 53, as
far as a host's numbers tell all integers apart. -/
structure Result.Representable (r : Result) : Prop where
  rows : ∀ row ∈ r.rows, row.address < 2 ^ 53
  reachable : r.reachable < 2 ^ 53
  report : ∀ e ∈ r.report, ∀ n ∈ e.numbers, n < 2 ^ 53

/-- A host can be given every result with numbers that it can represent, and it reads in the
value just what it was given. -/
def Converts {V : Type} (convert : Result → Except V V) (read : V → Option Result) : Prop :=
  ∀ r : Result, r.Representable → ∃ v, convert r = .ok v ∧ read v = some r

/-! ## What is answered for a program -/

/-- A row as a line of text. -/
def Row.printed (row : Row) : String := Hex.padded 3 row.address ++ ": " ++ row.text ++ "\n"

theorem Row.printed_ofLine (l : Line) : (Row.ofLine l).printed = l.display ++ "\n" := by
  rw [l.display_eq]
  rfl

/-- The answers for one program that is loaded at an address, and a job for it that writes
its listing to a file, tell the same. -/
structure Agree (load : UInt16) (bytes : Bytes) (result : Result) (text : String)
    (words : Array Word) : Prop where
  lines : String.join (result.rows.map Row.printed) = text
  words : result.rows.map Row.word = words.toList
  reachable : result.reachable = result.rows.countP Row.reachable
  classified : result.report.filter Report.Event.isClassified =
    result.rows.mapIdx fun i row => .classified i row.address row.word row.reachable
  trailing : result.trailing.isSome = true ↔ bytes.size % 2 = 1
  succeeds : ∀ (job : Job) (directory : Directory) (sink : Sink) (path : Path) (place : Place),
    directory.read job.rom = .ok bytes → job.config = { load, entry := 0 } →
    (job.report = true → (sink.deliver (result.report.map Report.Event.line)).2 = .ok ()) →
    job.output = some path → directory.create path = .ok place → directory.TakesAll place →
    ∃ summary, (job.run directory sink).result = .ok summary
  job : ∀ (job : Job) (directory : Directory) (sink : Sink) (path : Path) (place : Place)
      (summary : Job.Summary),
    directory.read job.rom = .ok bytes → job.config = { load, entry := 0 } →
    job.output = some path → directory.create path = .ok place → directory.IsRegular place →
    (job.run directory sink).result = .ok summary →
    summary = { words := result.rows.length, reachable := result.reachable } ∧
      (job.run directory sink).directory.Holds path place (Utf8.encode text)

variable (load : UInt16) (bytes : Bytes)

/-- What a session with this load address makes of the program. -/
def made (load : UInt16) (bytes : Bytes) : Disassembly := .ofImage { load } (.ofBytes bytes)

/-- What is told of it, with its own events as the report. -/
def resultMade (load : UInt16) (bytes : Bytes) : Result :=
  .of (made load bytes) (made load bytes).events

theorem rows_resultMade :
    (resultMade load bytes).rows = (List.range (bytes.size / 2)).map fun i =>
      Row.ofLine (Listing.lineOf (made load bytes).reachability load i (Image.wordIn bytes i)) := by
  rw [resultMade, Result.of, made, Disassembly.lines_ofBytes, List.map_map]
  rfl

theorem join_printed_rows :
    String.join ((resultMade load bytes).rows.map Row.printed) = (made load bytes).listing.text := by
  rw [resultMade, Result.of, List.map_map]
  exact congrArg String.join (List.map_congr_left fun l _ => Row.printed_ofLine l)

theorem map_word_rows :
    (resultMade load bytes).rows.map Row.word = (Image.ofBytes bytes).words.toList := by
  rw [resultMade, Result.of, List.map_map, ← Listing.map_word_lines_build
    (Image.ofBytes bytes).words (made load bytes).reachability load, Array.toList_map]
  rfl

theorem length_rows : (resultMade load bytes).rows.length = (Image.ofBytes bytes).size := by
  rw [← List.length_map Row.word, map_word_rows, Array.length_toList]
  rfl

theorem countP_rows :
    (resultMade load bytes).rows.countP Row.reachable = (made load bytes).reachability.count := by
  have hcode : (made load bytes).reachability.count = _ :=
    (Disassembly.tellsOneStory_ofBytes { load } bytes).codeLines
  rw [hcode, ← Array.countP_toList, resultMade, Result.of, List.countP_map]
  rfl

theorem report_resultMade :
    (resultMade load bytes).report =
      [.analysisStarted (bytes.size / 2),
        .analysisFinished (resultMade load bytes).reachable (bytes.size / 2)] ++
      (resultMade load bytes).rows.mapIdx
        (fun i row => .classified i row.address row.word row.reachable) ++
      (Image.unpaired bytes).map .trailingByte := by
  have hevents : (resultMade load bytes).report = _ := Disassembly.events_ofBytes { load } bytes
  rw [hevents, rows_resultMade, mapIdx_map_range]
  simp only [Row.ofLine, Listing.isCode_lineOf]
  rfl

theorem filter_classified_report :
    (resultMade load bytes).report.filter Report.Event.isClassified =
      (resultMade load bytes).rows.mapIdx fun i row =>
        .classified i row.address row.word row.reachable := by
  have hwords : ∀ e ∈ (resultMade load bytes).rows.mapIdx
      (fun i row => Report.Event.classified i row.address row.word row.reachable),
      e.isClassified = true := by
    rw [List.mapIdx_eq_zipIdx_map, List.forall_mem_map]
    exact fun _ _ => rfl
  have htrailing : ∀ e ∈ (Image.unpaired bytes).map Report.Event.trailingByte,
      ¬e.isClassified = true := by
    rw [List.forall_mem_map]
    exact fun _ _ => Bool.false_ne_true
  rw [report_resultMade, List.filter_append, List.filter_append, List.filter_eq_self.mpr hwords,
    List.filter_eq_nil_iff.mpr htrailing, List.append_nil]
  rfl

/-- A program that fits in a memory of 32 bits, or even of 52, has no number that is too large. -/
theorem representable_resultMade (h : bytes.size < 2 ^ 52) :
    (resultMade load bytes).Representable := by
  have hload : load.toNat < 65536 := load.toNat_lt
  have hrows : ∀ row ∈ (resultMade load bytes).rows, row.address < 2 ^ 53 := by
    rw [rows_resultMade, List.forall_mem_map]
    intro i hi
    have hi' : i < bytes.size / 2 := List.mem_range.mp hi
    change load.toNat + 2 * i < 2 ^ 53
    omega
  have hlength : (resultMade load bytes).rows.length = bytes.size / 2 := by
    rw [length_rows, Image.size_ofBytes]
  have hreachable : (resultMade load bytes).reachable ≤ (resultMade load bytes).rows.length := by
    rw [show (resultMade load bytes).reachable = _ from (countP_rows load bytes).symm]
    exact List.countP_le_length
  refine ⟨hrows, by omega, ?_⟩
  rw [report_resultMade, List.forall_mem_append, List.forall_mem_append]
  refine ⟨⟨?_, ?_⟩, ?_⟩
  · simp only [List.forall_mem_cons, Report.Event.numbers]
    simp
    omega
  · rw [List.mapIdx_eq_zipIdx_map, List.forall_mem_map]
    rintro ⟨row, i⟩ hrow
    have hi : i < (resultMade load bytes).rows.length := List.snd_lt_of_mem_zipIdx hrow
    have haddress := hrows row (List.fst_mem_of_mem_zipIdx hrow)
    simp only [Report.Event.numbers, List.forall_mem_cons]
    refine ⟨by omega, haddress, List.forall_mem_nil _⟩
  · rw [List.forall_mem_map]
    exact fun _ _ => List.forall_mem_nil _

theorem agree_resultMade {load : UInt16} (hvalid : ({ load } : Config).validate = .ok ())
    (bytes : Bytes) :
    Agree load bytes (resultMade load bytes) (made load bytes).listing.text
      (Image.ofBytes bytes).words where
  lines := join_printed_rows load bytes
  words := map_word_rows load bytes
  reachable := (countP_rows load bytes).symm
  classified := filter_classified_report load bytes
  trailing := Image.isSome_trailing_ofBytes bytes
  succeeds := by
    intro job directory sink path place hread hconfig hreport hpath hcreate htakes
    have hd : Chip8.disassemble job.config bytes = .ok (made load bytes) := by
      rw [hconfig]
      exact disassemble_of_ok hvalid bytes
    have hreporting : (job.reporting sink (made load bytes)).2 = .ok () := by
      rw [Job.reporting]
      split_ifs with hreported
      · exact hreport hreported
      · rfl
    obtain ⟨directory', hends, -⟩ :=
      Job.ends_of_written hpath hread hd hreporting hcreate htakes
    exact ⟨_, hends.result⟩
  job := by
    intro job directory sink path place summary hread hconfig hpath hcreate hregular h
    obtain ⟨d, hd, rfl, hholds⟩ := Job.holds_of_success hread hpath hcreate hregular h
    obtain ⟨-, rfl⟩ := eq_of_disassemble hd
    rw [hconfig] at hholds ⊢
    refine ⟨?_, hholds⟩
    rw [Job.Summary.of, length_rows]
    rfl

/-! ## The replies of a session -/

/-- The line that a session puts on the console when it has disassembled a program. -/
def shownLine (words reachable : Nat) : String :=
  "Disassembled " ++ toString words ++ " words, " ++ toString reachable ++ " reachable"

theorem replyToWords_eq {V : Type} (bytes : Bytes) :
    replyToWords (V := V) bytes =
      { answer := .words (Image.ofBytes bytes).words, records := (Image.ofBytes bytes).warnings } := by
  have hrecords : Signal.records ((Image.ofBytes bytes).warnings.map .record) =
      (Image.ofBytes bytes).warnings := by
    rw [Signal.records, List.filterMap_map]
    exact List.filterMap_some
  rw [replyToWords, Image.load_eq, StateM.bind_apply, Signal.forM_keep, StateM.pure_apply,
    Array.empty_append]
  exact congrArg (Reply.mk _ _) hrecords

variable {V : Type} (convert : Result → Except V V)

/-- Both questions about a program are refused for the same reason, and nothing is heard. -/
theorem reply_of_error {load : UInt16} {e : ConfigError}
    (h : ({ load } : Config).validate = .error e) (bytes : Bytes) :
    reply convert { load } (.disassemble bytes) = { answer := .refused e } ∧
      reply convert { load } (.listingText bytes) = { answer := .refused e } := by
  have hheard : heard { load } bytes = (.error e, []) := heard_of_error h bytes
  constructor
  · rw [reply, replyToDisassemble, config, hheard]
    rfl
  · rw [reply, replyToListingText, config, hheard]
    rfl

theorem reply_of_ok {load : UInt16} (h : ({ load } : Config).validate = .ok ()) (bytes : Bytes) :
    reply convert { load } (.disassemble bytes) =
        { answer := .ofConverted (convert (resultMade load bytes))
          console := [shownLine (resultMade load bytes).rows.length
            (resultMade load bytes).reachable]
          records := Signal.records (made load bytes).signals } ∧
      reply convert { load } (.listingText bytes) =
        { answer := .text (made load bytes).listing.text
          records := Signal.records (made load bytes).signals } := by
  have hheard : heard { load } bytes = (.ok (made load bytes), (made load bytes).signals) :=
    heard_of_ok h bytes
  constructor
  · rw [reply, replyToDisassemble, config, hheard, resultMade, ← Disassembly.events_signals]
    rfl
  · rw [reply, replyToListingText, config, hheard]

variable {convert} {read : V → Option Result}

/-- A session has no hidden state, and its answers agree. Each reply is determined by the
request and by the load address that was set last. A program is refused for the same reason
whether its disassembly or its listing is asked for, and that is when the load address is
odd or beyond the last address; its words are always told. Otherwise the answers for one
program agree with each other and with a job that writes its listing to a file, and a host
reads in its own value what it was answered, unless the program is too long for its numbers.
The console gets one line for each disassembly that is answered, and each line that it is
sent. -/
theorem replies_agree (hconvert : Converts convert read) (requests : List Request) :
    (∀ k, (replies convert {} requests)[k]? =
      requests[k]?.map (reply convert { load := loadSet (requests.take k) })) ∧
    ∀ (load : UInt16) (bytes : Bytes), ∃ words records,
      reply convert { load } (.words bytes) = { answer := .words words, records } ∧
      (¬(load.toNat ≤ 0xFFF ∧ load.toNat % 2 = 0) → ∃ e,
        reply convert { load } (.disassemble bytes) = { answer := .refused e } ∧
        reply convert { load } (.listingText bytes) = { answer := .refused e }) ∧
      (load.toNat ≤ 0xFFF → load.toNat % 2 = 0 → ∃ result text records,
        reply convert { load } (.disassemble bytes) =
          { answer := .ofConverted (convert result)
            console := [shownLine result.rows.length result.reachable]
            records } ∧
        (bytes.size < 2 ^ 52 → ∃ v, Answer.ofConverted (convert result) = .value v ∧
          read v = some result) ∧
        reply convert { load } (.listingText bytes) = { answer := .text text, records } ∧
        Agree load bytes result text words) ∧
      (∀ load', reply convert { load } (.setLoad load') = { answer := .done }) ∧
      ∀ message, reply convert { load } (.log message) =
        { answer := .done, console := [message] } := by
  refine ⟨?_, ?_⟩
  · intro k
    rw [getElem?_replies, foldl_after_eq]
  · intro load bytes
    refine ⟨(Image.ofBytes bytes).words, (Image.ofBytes bytes).warnings, replyToWords_eq bytes,
      ?_, ?_, fun _ => rfl, fun _ => rfl⟩
    · intro hinvalid
      cases hvalid : ({ load } : Config).validate with
      | ok u => exact absurd (({ load } : Config).validate_eq_ok_iff.mp hvalid) hinvalid
      | error e => exact ⟨e, reply_of_error convert hvalid bytes⟩
    · intro hrange heven
      have hvalid : ({ load } : Config).validate = .ok () :=
        ({ load } : Config).validate_eq_ok_iff.mpr ⟨hrange, heven⟩
      obtain ⟨hdisassemble, htext⟩ := reply_of_ok convert hvalid bytes
      refine ⟨_, _, _, hdisassemble, ?_, htext, agree_resultMade hvalid bytes⟩
      intro hsize
      obtain ⟨v, hv, hread⟩ := hconvert _ (representable_resultMade load bytes hsize)
      exact ⟨v, congrArg Answer.ofConverted hv, hread⟩

/-- A result that a host can represent has room in JSON. -/
theorem Result.Representable.exchangeable {r : Result} (h : r.Representable) : r.Exchangeable := by
  refine ⟨fun row hrow => Nat.lt_trans (h.rows row hrow) (by decide),
    Nat.lt_trans h.reachable (by decide), ?_⟩
  intro e he
  have hnumbers : ∀ n ∈ e.numbers, n < UInt64.size :=
    fun n hn => Nat.lt_trans (h.report e he n hn) (by decide)
  cases e with
  | analysisStarted words => exact hnumbers _ (.head _)
  | trailingByte byte => trivial
  | analysisFinished reachable total | classified index address word reached =>
    exact ⟨hnumbers _ (.head _), hnumbers _ (.tail _ (.head _))⟩

/-- The values of a host may be JSON. -/
theorem converts_toJson : Converts (fun r => .ok r.toJson) Result.ofJson? :=
  fun r h => ⟨r.toJson, rfl, Result.exact.read_write r h.exchangeable⟩

/-- A jump to itself at the address 300 and a byte that is left over. -/
def jumpAndByte : Bytes := #[0x13, 0x00, 0xAB]

/-- This program in a session and as a job. -/
theorem replies_agree_on_jump :
    (replies (fun r => .ok r.toJson) {}
        [.setLoad 0x300, .listingText jumpAndByte, .disassemble jumpAndByte])[1]?.map Reply.answer =
      some (.text "300: jmp 300\n") ∧
    (∃ v result, (replies (fun r => .ok r.toJson) {}
        [.setLoad 0x300, .listingText jumpAndByte, .disassemble jumpAndByte])[2]?.map Reply.answer =
          some (.value v) ∧
      Result.ofJson? v = some result ∧ result.rows.map Row.word = [0x1300]) ∧
    (Job.run { rom := #[0x72], output := some #[0x6F], config := { load := 0x300 } }
      (({} : Directory).addFile #[0x72] jumpAndByte) Sink.unlimited).directory.read
        #[0x6F] = .ok (Utf8.encode "300: jmp 300\n") := by
  obtain ⟨hreplies, hprograms⟩ := replies_agree converts_toJson
    [.setLoad 0x300, .listingText jumpAndByte, .disassemble jumpAndByte]
  obtain ⟨words, _, hwords, -, hanswered, -⟩ := hprograms 0x300 jumpAndByte
  obtain ⟨result, text, records, hvalue, hreadable, htext, hagree⟩ :=
    hanswered (by decide) (by decide)
  obtain ⟨v, hv, hresult⟩ := hreadable (by decide)
  have hwords' : words = #[0x1300] := by
    have hanswer := congrArg Reply.answer hwords
    rw [reply, replyToWords_eq] at hanswer
    cases hanswer
    decide +kernel
  have htext' : text = "300: jmp 300\n" := by
    have hanswer := congrArg Reply.answer (htext.symm.trans (reply_of_ok _ rfl jumpAndByte).2)
    cases hanswer
    decide +kernel
  have hread : (({} : Directory).addFile #[0x72] jumpAndByte).read #[0x72] = .ok jumpAndByte := by
    decide +kernel
  have hcreate : (({} : Directory).addFile #[0x72] jumpAndByte).create #[0x6F] =
      .ok { names := [[0x6F]] } := by decide +kernel
  have hregular : (({} : Directory).addFile #[0x72] jumpAndByte).IsRegular { names := [[0x6F]] } :=
    Directory.isRegular_of_new (by decide +kernel)
  obtain ⟨summary, hsummary⟩ := hagree.succeeds
    { rom := #[0x72], output := some #[0x6F], config := { load := 0x300 } } _ Sink.unlimited #[0x6F]
    _ hread rfl (fun _ => Sink.snd_deliver_unlimited _) rfl hcreate
    (hregular.takesAll Sink.neverFails_unlimited)
  obtain ⟨-, hfile⟩ := hagree.job _ _ Sink.unlimited _ _ _ hread rfl rfl hcreate hregular hsummary
  refine ⟨?_, ⟨v, result, ?_, hresult, ?_⟩, ?_⟩
  · rw [hreplies 1, ← htext']
    exact congrArg (fun r => some r.answer) htext
  · rw [hreplies 2, ← hv]
    exact congrArg (fun r => some r.answer) hvalue
  · rw [hagree.words, hwords']
  · rw [← htext']
    exact hfile.read (by decide +kernel)

end Session

end Chip8
