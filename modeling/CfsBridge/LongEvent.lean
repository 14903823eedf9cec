import CfsBridge.Classification
import CfsBridge.EvsText
import CfsBridge.Processor

/-!
# cFE long event packets

The layout that the receiver documents for an EVS packet, and what the text
scanner makes of it. The scan stops at the first NUL after some text. In this
layout that is the padding of the application name, so the scanner returns the
name and never reaches the message. The receiver keeps a scanner of its own,
which treats a text of blanks differently.
-/
namespace CfsBridge
open Bytes Python TelemetryReceiver Processor
open Segments EvsText
open CfsBridge.Parser

/-- A long event: the telemetry header, `AppName[20]`, four numeric fields and
a NUL-terminated message. -/
structure LongEvent where
  header : Bytes
  header_length : header.length = 16
  header_mid : streamWord header = cfeEvsLongEventMsgMid
  appName : Bytes
  appName_printable : ∀ b ∈ appName, printable b = true
  appName_pos : 1 ≤ appName.length
  appName_le : appName.length ≤ 19
  eventId : Bytes
  eventId_length : eventId.length = 2
  eventType : Bytes
  eventType_length : eventType.length = 2
  spacecraftId : Bytes
  spacecraftId_length : spacecraftId.length = 4
  processorId : Bytes
  processorId_length : processorId.length = 4
  message : Bytes
  message_printable : ∀ b ∈ message, printable b = true
  message_ne_nil : message ≠ []
  message_head : message.head? ≠ some 32
  message_last : message.getLast? ≠ some 32
  rest : Bytes

namespace LongEvent

/-- The bytes after the telemetry header. -/
def payload (e : LongEvent) : Bytes :=
  e.appName ++ List.replicate (20 - e.appName.length) 0 ++ e.eventId ++ e.eventType ++
    e.spacecraftId ++ e.processorId ++ e.message ++ 0 :: e.rest

def encode (e : LongEvent) : Bytes := e.header ++ e.payload

def messageText (e : LongEvent) : String := String.ofList (e.message.map toChar)

/-- The application name without outer spaces. -/
def nameText (e : LongEvent) : String := String.ofList (strip (e.appName.map toChar))

/-- The message can be seen in the name, or in the hex dump of the payload
that a name of spaces only falls back to. -/
def Shown (e : LongEvent) : Prop :=
  contains e.messageText (if e.nameText.toList ≠ [] then e.nameText else hex e.payload) = true

/-- The text names the array and the keyword, in any letter case. -/
def mentions (keyword text : String) : Bool :=
  contains "SOLAR" (upper text) && contains keyword (upper text)

/-! ### The scan -/

theorem appName_ne_nil (e : LongEvent) : e.appName ≠ [] :=
  List.ne_nil_of_length_pos e.appName_pos

/-- The name is padded with at least one NUL. -/
theorem payload_eq (e : LongEvent) : ∃ rest, e.payload = e.appName ++ 0 :: rest := by
  have hpad : 20 - e.appName.length = 19 - e.appName.length + 1 := by
    have := e.appName_le
    omega
  refine ⟨List.replicate (19 - e.appName.length) 0 ++ e.eventId ++ e.eventType ++
    e.spacecraftId ++ e.processorId ++ e.message ++ 0 :: e.rest, ?_⟩
  rw [payload, hpad, List.replicate_succ]
  simp only [List.append_assoc, List.cons_append]

/-- Whatever follows the name, the scan keeps the name alone. -/
theorem body_payload (e : LongEvent) : body e.payload = e.appName := by
  obtain ⟨rest, hrest⟩ := e.payload_eq
  rw [hrest, ← List.nil_append e.appName]
  exact body_append (by simp) e.appName_ne_nil e.appName_printable (by simp)

theorem scanText_payload (e : LongEvent) : scanText [] e.payload = e.appName.map toChar := by
  rw [scanText_eq, body_payload, map_bodyChar e.appName_printable]

theorem parseEvs_payload (e : LongEvent) :
    parseEvs e.payload = if e.nameText.toList ≠ [] then e.nameText else hex e.payload := by
  unfold parseEvs nameText
  rw [scanText_payload, String.toList_ofList]

/-- `TelemetryReceiver._parse_evs`, which nothing calls: the same scan, but no
hex dump once any text was found. -/
def receiverParseEvs (payload : Bytes) : String :=
  let txt := scanText [] payload
  if txt ≠ [] then String.ofList (strip txt) else hex payload

theorem receiverParseEvs_payload (e : LongEvent) : receiverParseEvs e.payload = e.nameText := by
  unfold receiverParseEvs
  have hname : e.appName.map toChar ≠ [] := by simpa using e.appName_ne_nil
  rw [scanText_payload, if_pos hname]
  rfl

/-! ### The two scanners -/

/-- Either scanner shows the text of the body. They differ in when they give up
on it: the parser's when no text is left, this one when there was no body. -/
theorem receiverParseEvs_eq (payload : Bytes) :
    receiverParseEvs payload =
      if body payload ≠ [] then
        String.ofList (trim (fun c => c == ' ') ((body payload).map bodyChar))
      else hex payload := by
  rw [receiverParseEvs, scanText_eq, strip_body]
  simp only [ne_eq, List.map_eq_nil_iff]

/-- The two scanners agree exactly on the payloads that have no body, or one
with a visible character. -/
theorem receiverParseEvs_eq_iff (payload : Bytes) :
    receiverParseEvs payload = parseEvs payload ↔
      (∀ b ∈ payload, printable b = false) ∨
        ∃ b ∈ body payload, printable b = true ∧ b ≠ 32 := by
  have hvisible : (∃ b ∈ body payload, printable b = true ∧ b ≠ 32) ↔
      trim (fun c => c == ' ') ((body payload).map bodyChar) ≠ [] := by
    simp only [ne_eq, trim_body_eq_nil_iff, not_forall, exists_prop]
  rw [hvisible, ← body_eq_nil_iff, receiverParseEvs_eq, parseEvs_eq, eventText]
  by_cases hbody : body payload = []
  · simp [hbody, trim]
  rw [if_pos hbody]
  by_cases htext : trim (fun c => c == ' ') ((body payload).map bodyChar) = []
  · -- a body of blanks: the empty text against the hex dump of a payload with bytes in it
    have hpayload : payload ≠ [] := by
      rintro rfl
      exact hbody rfl
    have hhex : hex payload ≠ "" := fun h => hpayload ((hex_eq_empty_iff payload).mp h)
    simp [htext, hbody, hhex.symm]
  · simp [htext]

theorem receiverParseEvs_blank :
    receiverParseEvs [32, 32, 0] = "" ∧ parseEvs [32, 32, 0] = "202000" ∧
      receiverParseEvs [32, 32, 0] ≠ parseEvs [32, 32, 0] := by decide

/-! ### The datagram -/

theorem encode_length (e : LongEvent) : e.encode.length = 16 + e.payload.length := by
  rw [encode, List.length_append, e.header_length]

/-- The encoded event is an EVS datagram with the scanner's text. -/
theorem ofDatagram_encode (e : LongEvent) :
    Telemetry.ofDatagram e.encode = .evs (parseEvs e.payload) := by
  have hlen := e.encode_length
  have hword : streamWord e.encode = cfeEvsLongEventMsgMid := by
    rw [← e.header_mid, streamWord, streamWord, encode,
      slice_append_of_le (by rw [e.header_length]; omega)]
  have hdrop : e.encode.drop 16 = e.payload := by
    rw [encode, ← e.header_length, List.drop_left]
  rw [Classification.ofDatagram_long (by omega), (Classification.typeOf_eq_evs _).mpr hword, hdrop]

/-- The event as a datagram that the receiver turns into an entry. -/
def datagram (e : LongEvent) : Datagram := ⟨e.encode, by have := e.encode_length; omega⟩

/-! ### Keywords -/

theorem statusFromEvs_eq (text before : String) :
    TelemetryProcessor.statusFromEvs text before =
      if mentions "CLOSE" text then "Closed" else if mentions "OPEN" text then "Open"
      else before := rfl

theorem statusFromEvs_closed (text before : String) :
    TelemetryProcessor.statusFromEvs text before = "Closed" ↔
      mentions "CLOSE" text = true ∨ (before = "Closed" ∧ mentions "OPEN" text = false) := by
  rw [statusFromEvs_eq]
  cases hclose : mentions "CLOSE" text with
  | true => simp
  | false => cases hopen : mentions "OPEN" text <;> simp

theorem contains_iff (needle s : String) :
    contains needle s = true ↔ needle.toList <:+: s.toList := decide_eq_true_iff

/-- What a part of a text mentions, the text mentions. -/
theorem mentions_of_contains {keyword part text : String} (h : contains part text = true)
    (hpart : mentions keyword part = true) : mentions keyword text = true := by
  have hupper : (upper part).toList <:+: (upper text).toList := by
    simp only [upper, String.toList_ofList]
    exact ((contains_iff part text).mp h).map Char.toUpper
  simp only [mentions, Bool.and_eq_true, contains_iff] at hpart ⊢
  exact ⟨hpart.1.trans hupper, hpart.2.trans hupper⟩

theorem toUpper_digitChar_ne {n : ℕ} (h : n < 16) : (Nat.digitChar n).toUpper ≠ 'S' := by
  interval_cases n <;> decide

/-- A hex dump has no letter S. -/
theorem mentions_hex (keyword : String) (data : Bytes) : mentions keyword (hex data) = false := by
  have hnone : 'S' ∉ (upper (hex data)).toList := by
    simp only [upper, String.toList_ofList, List.mem_map, not_exists, not_and]
    intro c hc
    obtain ⟨n, hn, rfl⟩ := mem_hex hc
    exact toUpper_digitChar_ne hn
  rw [mentions, Bool.and_eq_false_iff]
  left
  rw [Bool.eq_false_iff, ne_eq, contains_iff]
  exact fun h => hnone (h.subset (by decide))

/-- The scanner's text mentions a keyword only through the name. -/
theorem mentions_parseEvs (e : LongEvent) (keyword : String) :
    mentions keyword (parseEvs e.payload) = mentions keyword e.nameText := by
  rw [parseEvs_payload]
  split_ifs with hname
  · rfl
  · rw [mentions_hex]
    have hempty : e.nameText = "" := String.toList_eq_nil_iff.mp (not_not.mp hname)
    rw [hempty]
    rfl

/-! ### What reaches the operator -/

/-- `solar_array_status` once the event's datagram is processed. -/
def statusAfter (hms : Timestamp → String) (now : Timestamp) (p : TelemetryProcessor)
    (e : LongEvent) : String :=
  (p.process hms (entryOf now e.datagram)).2.solarArrayStatus

theorem statusAfter_eq (hms : Timestamp → String) (now : Timestamp) (p : TelemetryProcessor)
    (e : LongEvent) : e.statusAfter hms now p =
      TelemetryProcessor.statusFromEvs (parseEvs e.payload) p.solarArrayStatus := by
  rw [statusAfter, TelemetryProcessor.process_entryOf]
  simp only [Op.status, datagram, ofDatagram_encode]

theorem statusAfter_closed (hms : Timestamp → String) (now : Timestamp) (p : TelemetryProcessor)
    (e : LongEvent) : e.statusAfter hms now p = "Closed" ↔
      mentions "CLOSE" e.nameText = true ∨
        (p.solarArrayStatus = "Closed" ∧ mentions "OPEN" e.nameText = false) := by
  rw [statusAfter_eq, statusFromEvs_closed, mentions_parseEvs, mentions_parseEvs]

/-- The message reaches the event text, and a closing one the status, exactly
when it can be read in the application name or its hex fallback. The status
itself follows the keywords of the name. -/
theorem message_reaches_operator_iff (hms : Timestamp → String) (now : Timestamp)
    (p : TelemetryProcessor) (e : LongEvent) :
    ∃ parsed text, parsePacket e.encode = .ok parsed ∧ parsed.eventText = some text ∧
      ((contains e.messageText text = true ∧
          (mentions "CLOSE" e.messageText = true → e.statusAfter hms now p = "Closed")) ↔
        e.Shown) ∧
      (e.statusAfter hms now p = "Closed" ↔
        mentions "CLOSE" e.nameText = true ∨
          (p.solarArrayStatus = "Closed" ∧ mentions "OPEN" e.nameText = false)) := by
  refine ⟨_, parseEvs e.payload, parsePacket_ok e.encode, ?_, ?_, statusAfter_closed hms now p e⟩
  · rw [ofDatagram_encode]
    rfl
  have hshown : contains e.messageText (parseEvs e.payload) = true ↔ e.Shown := by
    rw [parseEvs_payload]
    rfl
  rw [← hshown, and_iff_left_iff_imp]
  intro hcontains hmessage
  rw [statusAfter_closed, ← mentions_parseEvs]
  exact .inl (mentions_of_contains hcontains hmessage)

/-- The event that RAD_APP sends when it closes the array, at its full cFE length. -/
def solarArrayClosed : LongEvent where
  header := [0x08, 0x08, 0xC0, 0x00, 0x00, 0xA5, 0, 0, 0, 1, 0, 0, 0, 0, 0, 0]
  header_length := rfl
  header_mid := by decide
  appName := asciiBytes "RAD_APP"
  appName_printable := by decide +kernel
  appName_pos := by decide
  appName_le := by decide
  eventId := [4, 0]
  eventId_length := rfl
  eventType := [4, 0]
  eventType_length := rfl
  spacecraftId := [66, 0, 0, 0]
  spacecraftId_length := rfl
  processorId := [1, 0, 0, 0]
  processorId_length := rfl
  message := asciiBytes ("RAD_APP FDIR: Radiation 200.0 mSv/h exceeds 150.0 - " ++
    "SOLAR ARRAY CLOSE CMD SENT (MID 0x1890 FC 6)")
  message_printable := by decide +kernel
  message_ne_nil := by decide
  message_head := by decide +kernel
  message_last := by decide +kernel
  rest := List.replicate 27 0

theorem solarArrayClosed_lost :
    (parsePacket solarArrayClosed.encode).toOption.bind ParsedPacket.eventText = some "RAD_APP" ∧
      contains solarArrayClosed.messageText "RAD_APP" = false ∧
      mentions "CLOSE" solarArrayClosed.messageText = true ∧
      solarArrayClosed.statusAfter (fun _ => "00:00:00") 0 (.init 200) = "Unknown" := by
  refine ⟨?_, by decide +kernel, by decide +kernel, ?_⟩
  · rw [parsePacket_ok, ofDatagram_encode]
    decide
  · rw [statusAfter_eq]
    decide

end LongEvent
end CfsBridge
