import CfsBridge.Parser
import CfsBridge.Segments

/-!
# Event text

What `_parse_evs` shows of a payload. Its loop has no state but the text so far:
empty before the first printable byte, growing after it, and final at the next
NUL. The specification names that stretch of the payload instead, and says when
its text gives way to the hex dump.
-/
namespace CfsBridge.EvsText
open Bytes Python Segments
open CfsBridge.Parser

/-- The bytes from the first printable one up to the next NUL, or the end. -/
def body (payload : Bytes) : Bytes := between printable (fun b => b == 0) payload

/-- A byte as a character; a space stands for what is not printable. -/
def bodyChar (b : UInt8) : Char := if printable b then toChar b else ' '

/-- The body's text without outer spaces, or the hex dump of the payload where
no text is left. -/
def eventText (payload : Bytes) : String :=
  let text := trim (fun c => c == ' ') ((body payload).map bodyChar)
  if text ≠ [] then String.ofList text else hex payload

/-- Text of printable ASCII characters. -/
def PrintableText (s : String) : Prop := ∀ c ∈ s.toList, 32 ≤ c.toNat ∧ c.toNat ≤ 126

/-- A printable text that does not start or end with a space. -/
structure IsMessage (m : String) : Prop where
  chars : PrintableText m
  ne_empty : m ≠ ""
  head : m.toList.head? ≠ some ' '
  last : m.toList.getLast? ≠ some ' '

/-! ### Characters -/

theorem printable_iff (b : UInt8) : printable b = true ↔ 32 ≤ b.toNat ∧ b.toNat ≤ 126 := by
  simp only [printable, Bool.and_eq_true, decide_eq_true_eq, UInt8.le_iff_toNat_le,
    UInt8.lt_iff_toNat_lt]
  change 32 ≤ b.toNat ∧ b.toNat < 127 ↔ _
  omega

/-- A printable byte is no NUL. -/
theorem beq_zero_of_printable {b : UInt8} (h : printable b = true) : (b == 0) = false := by
  rw [beq_eq_false_iff_ne]
  rintro rfl
  exact absurd h (by decide)

theorem toNat_toChar (b : UInt8) : (toChar b).toNat = b.toNat := by
  have hb := b.toNat_lt
  have hvalid : b.toNat.isValidChar := .inl (by omega)
  rw [toChar, Char.ofNat, dif_pos hvalid]
  rfl

theorem toNat_bodyChar (b : UInt8) : 32 ≤ (bodyChar b).toNat ∧ (bodyChar b).toNat ≤ 126 := by
  rw [bodyChar]
  split_ifs with hb
  · rw [toNat_toChar]
    exact (printable_iff b).mp hb
  · decide

theorem map_bodyChar {bs : Bytes} (h : ∀ b ∈ bs, printable b = true) :
    bs.map bodyChar = bs.map toChar := by
  apply List.map_congr_left
  intro b hb
  rw [bodyChar, if_pos (h b hb)]

theorem bodyChar_eq_space_iff (b : UInt8) :
    bodyChar b = ' ' ↔ (printable b = true → b = 32) := by
  rw [bodyChar]
  split_ifs with hb
  · rw [← Char.toNat_inj, toNat_toChar, ← UInt8.toNat_inj]
    simp [hb]
  · simp [hb]

/-- Of the printable characters `str.strip` removes the space alone. -/
theorem isSpace_of_printable {c : Char} (h : 32 ≤ c.toNat ∧ c.toNat ≤ 126) :
    isSpace c = (c == ' ') := by
  have hspace : (c == ' ') = decide (c.toNat = 32) := by
    rw [Bool.eq_iff_iff, beq_iff_eq, decide_eq_true_iff, ← Char.toNat_inj]
    rfl
  rw [hspace, Bool.eq_iff_iff, decide_eq_true_iff]
  simp only [isSpace, Bool.or_eq_true, Bool.and_eq_true, decide_eq_true_eq,
    List.contains_iff_mem, List.mem_cons, List.not_mem_nil, or_false]
  omega

theorem printableText_hex (data : Bytes) : PrintableText (hex data) := by
  intro c hc
  obtain ⟨n, hn, rfl⟩ := mem_hex hc
  interval_cases n <;> decide

theorem hex_eq_empty_iff (data : Bytes) : hex data = "" ↔ data = [] := by
  rw [← String.toList_eq_nil_iff, hex, String.toList_ofList]
  cases data <;> simp [hexPair]

/-! ### The loop -/

/-- Once there is text, the loop runs up to the next NUL. -/
theorem scanText_of_ne_nil {text : List Char} (h : text ≠ []) (payload : Bytes) :
    scanText text payload = text ++ (payload.takeWhile fun b => !(b == 0)).map bodyChar := by
  induction payload generalizing text with
  | nil => simp [scanText]
  | cons b rest ih =>
    by_cases hb : printable b = true
    · rw [scanText, if_pos hb, ih (by simp)]
      simp [beq_zero_of_printable hb, bodyChar, hb]
    · by_cases hzero : b = 0
      · rw [scanText, if_neg hb, if_pos ⟨h, hzero⟩]
        simp [hzero]
      · rw [scanText, if_neg hb, if_neg (fun hend => hzero hend.2), if_pos h, ih (by simp)]
        simp [hzero, bodyChar, hb]

/-- The loop collects the text of the body. -/
theorem scanText_eq (payload : Bytes) : scanText [] payload = (body payload).map bodyChar := by
  induction payload with
  | nil => rfl
  | cons b rest ih =>
    by_cases hb : printable b = true
    · rw [scanText, if_pos hb, scanText_of_ne_nil (by simp)]
      simp [body, between, hb, beq_zero_of_printable hb, bodyChar]
    · have hskip : body (b :: rest) = body rest := by simp [body, between, hb]
      rw [scanText, if_neg hb, if_neg (by simp), if_neg (by simp), ih, hskip]

theorem printable_body (payload : Bytes) :
    ∀ c ∈ (body payload).map bodyChar, 32 ≤ c.toNat ∧ c.toNat ≤ 126 := by
  intro c hc
  obtain ⟨b, _, rfl⟩ := List.mem_map.mp hc
  exact toNat_bodyChar b

/-- `strip` trims the body's text of its outer spaces only. -/
theorem strip_body (payload : Bytes) :
    strip ((body payload).map bodyChar) = trim (fun c => c == ' ') ((body payload).map bodyChar) :=
  trim_congr fun c hc => isSpace_of_printable (printable_body payload c hc)

theorem parseEvs_eq (payload : Bytes) : parseEvs payload = eventText payload := by
  rw [parseEvs, eventText, scanText_eq, strip_body]

/-- Nothing is left of a body without a visible character. -/
theorem trim_body_eq_nil_iff (payload : Bytes) :
    trim (fun c => c == ' ') ((body payload).map bodyChar) = [] ↔
      ∀ b ∈ body payload, printable b = true → b = 32 := by
  simp only [trim_eq_nil_iff, List.forall_mem_map, beq_iff_eq, bodyChar_eq_space_iff]

theorem body_eq_nil_iff (payload : Bytes) :
    body payload = [] ↔ ∀ b ∈ payload, printable b = false :=
  between_eq_nil_iff (fun _ => beq_zero_of_printable) payload

/-! ### What the text says -/

theorem printableText_eventText (payload : Bytes) : PrintableText (eventText payload) := by
  rw [eventText]
  split_ifs with htext
  · intro c hc
    rw [String.toList_ofList] at hc
    exact printable_body payload c (mem_of_mem_trim hc)
  · exact printableText_hex payload

theorem eventText_eq_empty_iff (payload : Bytes) : eventText payload = "" ↔ payload = [] := by
  rw [eventText]
  split_ifs with htext
  · have hpayload : payload ≠ [] := by
      rintro rfl
      exact htext rfl
    rw [← String.toList_eq_nil_iff, String.toList_ofList]
    exact iff_of_false htext hpayload
  · exact hex_eq_empty_iff payload

/-- The body found between unprintable bytes and the end of a text. -/
theorem body_append {before text after : Bytes} (hbefore : ∀ b ∈ before, printable b = false)
    (hne : text ≠ []) (htext : ∀ b ∈ text, printable b = true) (hafter : ∀ b ∈ after.head?, b = 0) :
    body (before ++ text ++ after) = text := by
  apply between_append hbefore
  · obtain ⟨b, rest, rfl⟩ := List.exists_cons_of_ne_nil hne
    exact htext b List.mem_cons_self
  · intro b hb
    exact beq_zero_of_printable (htext b hb)
  · intro b hb
    exact beq_iff_eq.mpr (hafter b hb)

/-! ### Messages -/

section Message
variable {m : String}

theorem IsMessage.map_toChar (hm : IsMessage m) : (asciiBytes m).map toChar = m.toList :=
  map_toChar_asciiBytes fun c hc => lt_of_le_of_lt (hm.chars c hc).2 (by decide)

theorem IsMessage.printable_bytes (hm : IsMessage m) : ∀ b ∈ asciiBytes m, printable b = true := by
  intro b hb
  obtain ⟨c, hc, rfl⟩ := List.mem_map.mp hb
  have hrange := hm.chars c hc
  have hmod : c.toNat % 2 ^ 8 = c.toNat := Nat.mod_eq_of_lt (by omega)
  rw [printable_iff, UInt8.toNat_ofNat', hmod]
  exact hrange

theorem IsMessage.asciiBytes_ne_nil (hm : IsMessage m) : asciiBytes m ≠ [] := by
  intro hnil
  have hlist : m.toList = [] := List.map_eq_nil_iff.mp hnil
  exact hm.ne_empty (String.toList_eq_nil_iff.mp hlist)

/-- A message has no outer space to lose. -/
theorem IsMessage.trim_eq (hm : IsMessage m) : trim (fun c => c == ' ') m.toList = m.toList := by
  apply trim_eq_self
  · intro c hc
    rw [beq_eq_false_iff_ne]
    rintro rfl
    exact hm.head hc
  · intro c hc
    rw [beq_eq_false_iff_ne]
    rintro rfl
    exact hm.last hc

/-- A message is found between unprintable bytes and a NUL or the end. -/
theorem eventText_message (hm : IsMessage m) {before after : Bytes}
    (hbefore : ∀ b ∈ before, printable b = false) (hafter : ∀ b ∈ after.head?, b = 0) :
    eventText (before ++ asciiBytes m ++ after) = m := by
  have hchars : (asciiBytes m).map bodyChar = m.toList := by
    rw [map_bodyChar hm.printable_bytes, hm.map_toChar]
  have hne : m.toList ≠ [] := fun hnil => hm.ne_empty (String.toList_eq_nil_iff.mp hnil)
  rw [eventText, body_append hbefore hm.asciiBytes_ne_nil hm.printable_bytes hafter, hchars,
    hm.trim_eq, if_pos hne, String.ofList_toList]

end Message

/-- The scanner returns the text of the body, or the hex dump where there is
none. So it shows printable characters, something for every payload that is not
empty, and every message as it was sent. -/
theorem parseEvs_eventText :
    (∀ payload, parseEvs payload = eventText payload ∧ PrintableText (parseEvs payload) ∧
      (parseEvs payload = "" ↔ payload = [])) ∧
    ∀ (m : String) (before rest : Bytes), IsMessage m → (∀ b ∈ before, printable b = false) →
      parseEvs (before ++ asciiBytes m ++ 0 :: rest) = m ∧
        parseEvs (before ++ asciiBytes m) = m := by
  constructor
  · intro payload
    rw [parseEvs_eq]
    exact ⟨rfl, printableText_eventText payload, eventText_eq_empty_iff payload⟩
  · intro m before rest hm hbefore
    have hend := eventText_message hm hbefore (show ∀ b ∈ ([] : Bytes).head?, b = 0 by simp)
    rw [List.append_nil] at hend
    rw [parseEvs_eq, parseEvs_eq]
    exact ⟨eventText_message hm hbefore (by simp), hend⟩

end CfsBridge.EvsText
