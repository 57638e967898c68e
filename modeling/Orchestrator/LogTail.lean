import Orchestrator.Run
import Orchestrator.Lib.Json
import Orchestrator.Lib.Utf8

/-! A session log that is being written, read from a cut in the middle of it. -/

namespace Orchestrator

open Rust

def IsRecord (r : String) : Prop := Rfc8259.IsObject r.toList ∧ '\n' ∉ r.toList

/-- The complete records of a session log, and as much of a `further` one as is written. -/
structure SessionLog where
  records : List String
  further : String
  written : Bytes
  isRecord : ∀ r ∈ further :: records, IsRecord r
  written_isPrefix : written <+: asBytes further
  written_ne : written ≠ asBytes further

def recordBytes (records : List String) : Bytes := records.flatMap fun r => asBytes r ++ [10]

namespace SessionLog

def start (log : SessionLog) : Nat := (recordBytes log.records).length

def bytes (log : SessionLog) : Bytes := recordBytes log.records ++ log.written

def tail (log : SessionLog) (cut : Nat) : String := fromUtf8Lossy (log.bytes.drop cut)

end SessionLog

def maxJsonlTailBytes : Nat := 65536

/-- Where `read_log_tail` starts in a file that has `len` bytes when it is opened. -/
def tailStart (len maxBytes : Nat) : Nat := len - maxBytes

def contained : Nat → List String → List String
  | _, [] => []
  | 0, r :: rs => r :: rs
  | n + 1, r :: rs => contained (n + 1 - (asBytes r ++ [10]).length) rs

@[simp] theorem contained_zero (records : List String) : contained 0 records = records := by
  cases records <;> rfl

theorem recordBytes_cons (r : String) (rs : List String) :
    recordBytes (r :: rs) = asBytes r ++ 10 :: recordBytes rs := by
  rw [recordBytes, List.flatMap_cons, List.append_assoc, List.singleton_append]
  rfl

theorem contained_of_start_le {records : List String} {cut : Nat}
    (h : (recordBytes records).length ≤ cut) : contained cut records = [] := by
  induction records generalizing cut with
  | nil => cases cut <;> rfl
  | cons r rs ih =>
    simp only [recordBytes_cons, List.length_append, List.length_cons] at h
    cases cut with
    | zero => omega
    | succ n =>
      rw [contained, ih]
      simp only [List.length_append, List.length_singleton]
      omega

section Lines

def lossyLines (bs : Bytes) : List String := lines (fromUtf8Lossy bs)

theorem lossyLines_newline {xs : Bytes} (h : 10 ∉ xs) (ys : Bytes) :
    lossyLines (xs ++ 10 :: ys) =
      String.ofList (endLine (lossy xs).reverse) :: lossyLines ys := by
  simp only [lossyLines, lines, toList_fromUtf8Lossy, lossy_newline]
  rw [linesAux_newline (not_newline_lossy h), List.append_nil, List.map_cons]

theorem lossyLines_last {xs : Bytes} (h : 10 ∉ xs) :
    lossyLines xs = if lossy xs = [] then [] else [fromUtf8Lossy xs] := by
  simp only [lossyLines, lines, toList_fromUtf8Lossy]
  rw [linesAux_last (not_newline_lossy h)]
  by_cases hnil : lossy xs = []
  · simp [hnil]
  · simp only [hnil, and_false, if_false, List.reverse_nil, List.nil_append, List.map_singleton]
    rfl

variable {r : String}

theorem IsRecord.last (h : IsRecord r) : r.toList.getLast? = some '}' := by
  obtain ⟨ds, hds, -⟩ := h.1.eq_wrap
  rw [hds, List.getLast?_concat]

theorem IsRecord.newline_not_mem (h : IsRecord r) : 10 ∉ asBytes r :=
  fun hmem => h.2 (newline_mem_encode.mp hmem)

theorem lossyLines_records {records : List String} (h : ∀ r ∈ records, IsRecord r) (xs : Bytes) :
    lossyLines (recordBytes records ++ xs) = records ++ lossyLines xs := by
  induction records with
  | nil => rfl
  | cons r rs ih =>
    obtain ⟨hr, hrs⟩ := List.forall_mem_cons.mp h
    have hend : endLine (lossy (asBytes r)).reverse = r.toList := by
      rw [asBytes_eq_encode, lossy_encode, endLine_reverse]
      simp [hr.last]
    rw [recordBytes_cons, List.append_assoc, List.cons_append,
      lossyLines_newline hr.newline_not_mem, hend, ih hrs, String.ofList_toList, List.cons_append]

theorem lossyLines_cut (h : IsRecord r) {xs : Bytes} (hxs : xs <:+ asBytes r)
    (hne : xs ≠ asBytes r) (ys : Bytes) :
    ∃ l, lossyLines (xs ++ 10 :: ys) = l :: lossyLines ys ∧ ¬Rfc8259.IsText l.toList := by
  obtain ⟨n, t, ht, hchunks, hwhole⟩ := utf8Chunks_suffix hxs
  have hnot : 10 ∉ xs := fun hmem => h.newline_not_mem (hxs.subset hmem)
  have hlossy : lossy xs = List.replicate n '\uFFFD' ++ t := by
    rw [lossy, hchunks, List.map_append, List.map_replicate, List.map_map]
    exact congrArg _ (List.map_id t)
  have hlast : (List.replicate n '\uFFFD' ++ t).getLast? ≠ some '\r' := by
    by_cases hnil : t = []
    · intro hcr
      rw [hnil, List.append_nil] at hcr
      exact absurd (List.eq_of_mem_replicate (List.mem_of_getLast? hcr)) (by decide)
    · obtain ⟨p, hp⟩ := ht
      rw [List.getLast?_append_of_ne_nil _ hnil, ← List.getLast?_append_of_ne_nil p hnil, hp,
        h.last]
      decide
  refine ⟨String.ofList (List.replicate n '\uFFFD' ++ t), ?_, ?_⟩
  · rw [lossyLines_newline hnot, hlossy, endLine_reverse hlast]
  · rw [String.toList_ofList]
    refine h.1.not_text_suffix ht n fun hn heq => hne ?_
    rw [hwhole hn, heq, asBytes_eq_encode]

theorem lossyLines_written {xs : Bytes} (h : IsRecord r) (hxs : xs <+: asBytes r)
    (hne : xs ≠ asBytes r) : ∀ l ∈ lossyLines xs, ¬Rfc8259.IsText l.toList := by
  obtain ⟨t, rest, ht, htne, hchunks, hrest⟩ := utf8Chunks_isPrefix hxs hne
  have hnot : 10 ∉ xs := fun hmem => h.newline_not_mem (hxs.subset hmem)
  have hlossy : lossy xs = t ++ rest.map fun c => c.getD '\uFFFD' := by
    rw [lossy, hchunks, List.map_append, List.map_map]
    exact congrArg (· ++ _) (List.map_id t)
  intro l hl
  rw [lossyLines_last hnot] at hl
  split at hl
  · cases hl
  · obtain rfl := List.mem_singleton.mp hl
    rw [toList_fromUtf8Lossy, hlossy]
    apply h.1.not_text_isPrefix ht htne
    obtain rfl | rfl := hrest
    · exact .inl rfl
    · exact .inr rfl

theorem lossyLines_drop {records : List String} (h : ∀ r ∈ records, IsRecord r) {cut : Nat}
    (hcut : cut ≤ (recordBytes records).length) (xs : Bytes) :
    ∃ torn, lossyLines ((recordBytes records ++ xs).drop cut) =
        torn ++ contained cut records ++ lossyLines xs ∧
      ∀ l ∈ torn, ¬Rfc8259.IsText l.toList := by
  induction records generalizing cut with
  | nil =>
    obtain rfl : cut = 0 := by simpa [recordBytes] using hcut
    exact ⟨[], rfl, by simp⟩
  | cons r rs ih =>
    obtain ⟨hr, hrs⟩ := List.forall_mem_cons.mp h
    cases cut with
    | zero => exact ⟨[], lossyLines_records h xs, by simp⟩
    | succ n =>
      rw [recordBytes_cons, List.append_assoc, List.cons_append]
      rw [recordBytes_cons, List.length_append, List.length_cons] at hcut
      have hcontained : contained (n + 1) (r :: rs) =
          contained (n + 1 - ((asBytes r).length + 1)) rs := by
        rw [contained, List.length_append, List.length_singleton]
      by_cases hle : n + 1 ≤ (asBytes r).length
      · have hne : (asBytes r).drop (n + 1) ≠ asBytes r := by
          intro heq
          have hlen := congrArg List.length heq
          rw [List.length_drop] at hlen
          omega
        obtain ⟨l, hl, htext⟩ := lossyLines_cut hr (List.drop_suffix _ _) hne (recordBytes rs ++ xs)
        refine ⟨[l], ?_, by simpa using htext⟩
        rw [List.drop_append_of_le_length hle, hl, lossyLines_records hrs, hcontained,
          Nat.sub_eq_zero_of_le (by omega), contained_zero]
        rfl
      · have hrest : n + 1 - ((asBytes r).length + 1) ≤ (recordBytes rs).length := by omega
        obtain ⟨torn, htorn, htext⟩ := ih hrs hrest
        refine ⟨torn, ?_, htext⟩
        have hdrop : (asBytes r ++ [10]).drop (n + 1) = [] := by
          rw [List.drop_eq_nil_iff, List.length_append, List.length_singleton]
          omega
        rw [hcontained, ← htorn, List.append_cons, List.drop_append, hdrop, List.nil_append,
          List.length_append, List.length_singleton]

end Lines

section Signals

variable [Crates]

inductive Signals (value : Json) : Prop
  | maxTokens : (value.get "message" >>= Json.get "stop_reason" >>= Json.asStr) =
      some "max_tokens" → Signals value
  | rateLimit : (value.get "error" >>= Json.asStr) = some "rate_limit" → Signals value
  | api429 : value.get "apiErrorStatus" = some (.natural 429) → Signals value
  | apiError : value.get "isApiErrorMessage" = some (.bool true) →
      (classifyProviderErrorWithMatch (Crates.jsonToString value)).map
        ProviderErrorMatch.errorClass = some .serviceCap → Signals value

def Counts (since : Int) (line : String) : Prop :=
  ∃ value timestamp, Crates.serdeJson line = some value ∧
    (value.get "timestamp" >>= Json.asStr >>= Crates.parseRfc3339) = some timestamp ∧
    since ≤ timestamp ∧ Signals value

/-- The search finds something just when some record counts, and then it is what the last of
these records signals. -/
structure Reports (since : Int) (found : Option (String × String)) (records : List String) :
    Prop where
  found_iff : found.isSome ↔ ∃ r ∈ records, Counts since r
  last : ∀ cap, found = some cap → ∃ before r after, records = before ++ r :: after ∧
    Counts since r ∧ (∀ q ∈ after, ¬Counts since q) ∧
    (Crates.serdeJson r).bind recordServiceCap = some cap

theorem recordServiceCap_isSome {value : Json} :
    (recordServiceCap value).isSome ↔ Signals value := by
  constructor
  · intro h
    simp only [recordServiceCap] at h
    split_ifs at h with hmax hrate hapi herror hcap
    · exact .maxTokens hmax
    · exact .rateLimit hrate
    · exact .api429 (by grind)
    · exact .apiError (by grind) hcap
    · cases h
    · cases h
  · intro h
    simp only [recordServiceCap]
    cases h with
    | maxTokens h =>
      rw [if_pos h]
      rfl
    | rateLimit h => split_ifs <;> simp
    | api429 h => split_ifs <;> simp_all
    | apiError h hcap => split_ifs <;> simp_all

theorem lineServiceCap_isSome {since : Int} {line : String} :
    (lineServiceCap since line).isSome ↔ Counts since line := by
  simp only [lineServiceCap, Counts]
  cases Crates.serdeJson line with
  | none => simp
  | some value =>
    simp only [Option.some.injEq, exists_and_left, exists_eq_left']
    cases value.get "timestamp" >>= Json.asStr >>= Crates.parseRfc3339 with
    | none => simp
    | some timestamp =>
      simp only [Option.some.injEq, exists_eq_left', ← recordServiceCap_isSome]
      by_cases hlt : timestamp < since
      · simp [hlt, not_le.mpr hlt]
      · simp [hlt, not_lt.mp hlt]

theorem lineServiceCap_of_value {since timestamp : Int} {line : String} {value : Json}
    (hvalue : Crates.serdeJson line = some value)
    (hstamp : (value.get "timestamp" >>= Json.asStr >>= Crates.parseRfc3339) = some timestamp)
    (hsince : since ≤ timestamp) : lineServiceCap since line = recordServiceCap value := by
  simp only [lineServiceCap, hvalue, hstamp]
  rw [if_neg (not_lt.mpr hsince)]

theorem lineServiceCap_eq_some {since : Int} {line : String} {cap : String × String}
    (h : lineServiceCap since line = some cap) :
    (Crates.serdeJson line).bind recordServiceCap = some cap := by
  revert h
  simp only [lineServiceCap]
  cases Crates.serdeJson line with
  | none => simp
  | some value =>
    dsimp only
    cases value.get "timestamp" >>= Json.asStr >>= Crates.parseRfc3339 with
    | none => simp
    | some timestamp =>
      dsimp only
      split_ifs
      · simp
      · exact id

theorem lineServiceCap_eq_none {since : Int} {line : String} :
    lineServiceCap since line = none ↔ ¬Counts since line := by
  rw [← lineServiceCap_isSome, Option.not_isSome_iff_eq_none]

theorem reports_of_lines {since : Int} {torn records others : List String}
    (htorn : ∀ l ∈ torn, ¬Counts since l) (hothers : ∀ l ∈ others, ¬Counts since l) :
    Reports since ((torn ++ records ++ others).reverse.findSome? (lineServiceCap since))
      records := by
  have hnone : ∀ {ls : List String}, (∀ l ∈ ls, ¬Counts since l) →
      ls.reverse.findSome? (lineServiceCap since) = none := by
    intro ls h
    rw [List.findSome?_eq_none_iff]
    exact fun l hl => lineServiceCap_eq_none.mpr (h l (List.mem_reverse.mp hl))
  rw [List.reverse_append, List.reverse_append, List.findSome?_append, List.findSome?_append,
    hnone htorn, hnone hothers, Option.none_or, Option.or_none]
  constructor
  · rw [List.findSome?_isSome_iff]
    simp only [List.mem_reverse, lineServiceCap_isSome]
  · intro cap hcap
    obtain ⟨after, r, before, heq, hr, hafter⟩ := List.findSome?_eq_some_iff.mp hcap
    refine ⟨before.reverse, r, after.reverse, ?_, ?_, ?_, lineServiceCap_eq_some hr⟩
    · rw [← List.reverse_reverse records, heq]
      simp
    · exact lineServiceCap_isSome.mp (by rw [hr]; rfl)
    · exact fun q hq => lineServiceCap_eq_none.mp (hafter q (List.mem_reverse.mp hq))

variable {log : SessionLog} {cut : Nat} {since : Int}

theorem not_counts (hjson : ∀ s, (Crates.serdeJson s).isSome → Rfc8259.IsText s.toList)
    {line : String} (h : ¬Rfc8259.IsText line.toList) : ¬Counts since line := by
  rintro ⟨value, -, hvalue, -⟩
  exact h (hjson line (by rw [hvalue]; rfl))

theorem reports_nil {found : Option (String × String)} : Reports since found [] ↔ found = none := by
  constructor
  · intro h
    have hfound := h.found_iff
    simpa using hfound
  · rintro rfl
    exact ⟨by simp, by simp⟩

theorem tailServiceCapSince_line {bs : Bytes} (h : 10 ∉ bs)
    (hjson : ∀ s, (Crates.serdeJson s).isSome → Rfc8259.IsText s.toList) :
    tailServiceCapSince (fromUtf8Lossy bs) since = lineServiceCap since (fromUtf8Lossy bs) := by
  have hlines : lines (fromUtf8Lossy bs) = _ := lossyLines_last h
  rw [tailServiceCapSince, hlines]
  split
  · next hnil =>
    have htext : ¬Rfc8259.IsText (fromUtf8Lossy bs).toList := by
      rw [toList_fromUtf8Lossy, hnil]
      exact fun htext => htext.ne_nil rfl
    rw [lineServiceCap_eq_none.mpr (not_counts hjson htext)]
    rfl
  · simp

theorem tail_reports_iff (hjson : ∀ s, (Crates.serdeJson s).isSome → Rfc8259.IsText s.toList) :
    Reports since (tailServiceCapSince (log.tail cut) since) (contained cut log.records) ↔
      ¬(log.start < cut ∧ Counts since (log.tail cut)) := by
  have hrecords : ∀ r ∈ log.records, IsRecord r := fun r hr => log.isRecord r (by simp [hr])
  have hfurther : IsRecord log.further := log.isRecord _ (by simp)
  by_cases hcut : cut ≤ log.start
  · obtain ⟨torn, hlines, htorn⟩ := lossyLines_drop hrecords hcut log.written
    have hwritten := lossyLines_written hfurther log.written_isPrefix log.written_ne
    have hreports : Reports since (tailServiceCapSince (log.tail cut) since)
        (contained cut log.records) := by
      have hlines' : lines (log.tail cut) = _ := hlines
      rw [tailServiceCapSince, hlines']
      exact reports_of_lines (fun l hl => not_counts hjson (htorn l hl))
        (fun l hl => not_counts hjson (hwritten l hl))
    simp [hreports, not_lt.mpr hcut]
  · have hstart : log.start < cut := not_le.mp hcut
    rw [contained_of_start_le (le_of_lt hstart)]
    have hdrop : log.bytes.drop cut = log.written.drop (cut - log.start) := by
      rw [SessionLog.bytes, List.drop_append, List.drop_eq_nil_of_le (le_of_lt hstart),
        List.nil_append]
      rfl
    have hnot : 10 ∉ log.bytes.drop cut := by
      rw [hdrop]
      exact fun hmem => hfurther.newline_not_mem
        (log.written_isPrefix.subset (List.mem_of_mem_drop hmem))
    have hline : tailServiceCapSince (log.tail cut) since = lineServiceCap since (log.tail cut) :=
      tailServiceCapSince_line hnot hjson
    rw [reports_nil, hline, lineServiceCap_eq_none]
    simp [hstart]

end Signals

namespace Sample.Tail

def quoted (cs : List Char) : List Char := '"' :: cs ++ ['"']

def member (key : String) (value : List Char) : List Char :=
  '"' :: key.toList ++ ['"', ':'] ++ value

def stamp : String := "2026-01-01T00:00:00Z"

def cappedText (n : Nat) : List Char :=
  '{' :: (member "text" (quoted (List.replicate n 'a')) ++ ',' ::
    (member "timestamp" (quoted stamp.toList) ++ ',' ::
      member "error" (quoted "rate_limit".toList))) ++ ['}']

def cappedValue (n : Nat) : Json :=
  .object [("text", .string (String.ofList (List.replicate n 'a'))), ("timestamp", .string stamp),
    ("error", .string "rate_limit")]

def resultOpen (n : Nat) : List Char := '{' :: member "result" (cappedText n)

def resultText (n : Nat) : List Char := resultOpen n ++ ['}']

section

variable (n : Nat)

theorem length_capped : (encode (cappedText n)).length = n + 67 := by
  rw [length_encode_ascii]
  · simp [cappedText, member, quoted, stamp]
  · simp [cappedText, member, quoted, stamp, or_imp, forall_and]

theorem newline_not_mem_capped : '\n' ∉ cappedText n := by
  simp [cappedText, member, quoted, stamp]

theorem isText_quoted {cs : List Char} (h : ∀ c ∈ cs, 0x20 ≤ c.toNat ∧ c ≠ '"' ∧ c ≠ '\\') :
    Rfc8259.IsText (quoted cs) :=
  (Rfc8259.Derives.string (Rfc8259.chars_of_plain h)).isText

theorem isObject_capped : Rfc8259.IsObject (cappedText n) := by
  have hkeys : Rfc8259.Chars "text".toList ∧ Rfc8259.Chars "timestamp".toList ∧
      Rfc8259.Chars "error".toList := by
    refine ⟨?_, ?_, ?_⟩ <;> exact Rfc8259.chars_of_plain (by simp)
  have htext : Rfc8259.IsText (quoted (List.replicate n 'a')) := by
    apply isText_quoted
    intro c hc
    rw [List.eq_of_mem_replicate hc]
    decide
  have hstamp : Rfc8259.IsText (quoted stamp.toList) := isText_quoted (by simp [stamp])
  have herror : Rfc8259.IsText (quoted "rate_limit".toList) := isText_quoted (by simp)
  exact ⟨.object (.fields hkeys.1 htext (.fields hkeys.2.1 hstamp (.field hkeys.2.2 herror))), rfl⟩

theorem isObject_result : Rfc8259.IsObject (resultText n) := by
  have hkey : Rfc8259.Chars "result".toList := Rfc8259.chars_of_plain (by simp)
  exact ⟨.object (.field hkey (isObject_capped n).1.isText), rfl⟩

theorem newline_not_mem_result : '\n' ∉ resultText n := by
  simp [resultText, resultOpen, member, newline_not_mem_capped]

def interrupted : SessionLog where
  records := []
  further := String.ofList (resultText n)
  written := encode (resultOpen n)
  isRecord := by
    rw [List.forall_mem_singleton, IsRecord, String.toList_ofList]
    exact ⟨isObject_result n, newline_not_mem_result n⟩
  written_isPrefix := by
    rw [asBytes_eq_encode, String.toList_ofList, resultText, encode_append]
    exact List.prefix_append _ _
  written_ne := by
    rw [asBytes_eq_encode, String.toList_ofList, resultText, encode_append]
    exact fun h => by simp [encode, String.utf8EncodeChar_ne_nil] at h

theorem interrupted_bytes : (interrupted n).bytes =
    encode "\x7b\"result\":".toList ++ encode (cappedText n) := by
  rw [← encode_append]
  rfl

theorem interrupted_tail : (interrupted n).bytes.drop 10 = encode (cappedText n) := by
  have hlen : (encode "\x7b\"result\":".toList).length = 10 := by decide
  rw [interrupted_bytes, ← hlen, List.drop_left]

theorem interrupted_start : tailStart (interrupted n).bytes.length (n + 67) = 10 := by
  rw [interrupted_bytes, List.length_append, length_capped, tailStart, Nat.add_sub_cancel]
  decide

def accented : String := "\x7b\"é\":\"1\"\x7d"

theorem isRecord_accented : IsRecord accented := by
  have hkey : Rfc8259.Chars "é".toList := Rfc8259.chars_of_plain (by simp)
  have hvalue : Rfc8259.IsText (quoted "1".toList) := isText_quoted (by simp)
  exact ⟨⟨.object (.field hkey hvalue), rfl⟩, by decide⟩

def resumed : SessionLog :=
  { interrupted n with
    records := [accented, String.ofList (cappedText n)]
    isRecord := by
      have hcapped : IsRecord (String.ofList (cappedText n)) := by
        rw [IsRecord, String.toList_ofList]
        exact ⟨isObject_capped n, newline_not_mem_capped n⟩
      have hfurther := (interrupted n).isRecord _ (List.mem_cons_self ..)
      simpa using ⟨hfurther, isRecord_accented, hcapped⟩ }

theorem resumed_contained : contained 3 (resumed n).records = [String.ofList (cappedText n)] := by
  have hlen : (asBytes accented ++ [10]).length = 11 := by decide
  rw [resumed, contained, hlen, contained_zero]

theorem resumed_start : 3 ≤ (resumed n).start := by
  have hlen : (asBytes accented).length = 10 := by decide
  rw [SessionLog.start, resumed, recordBytes_cons, List.length_append, hlen]
  omega

def signal : String × String := ("claude_jsonl_rate_limit_since_dispatch", "rate_limit")

theorem cappedValue_signal [Crates] : recordServiceCap (cappedValue n) = some signal := rfl

theorem cappedValue_stamp :
    ((cappedValue n).get "timestamp" >>= Json.asStr) = some stamp := rfl

end

def size : Nat := 65469

open Classical in
/-- The RFC 8259 texts are accepted; the values of other texts than the sample play no part. -/
noncomputable scoped instance crates : Crates :=
  { Sample.crates with
    serdeJson := fun s =>
      if Rfc8259.IsText s.toList then
        some (if s.toList = cappedText size then cappedValue size else .null)
      else none
    parseRfc3339 := fun s => if s = stamp then some (seconds 1767225600) else none }

theorem exact_json (s : String) : (Crates.serdeJson s).isSome ↔ Rfc8259.IsText s.toList := by
  by_cases h : Rfc8259.IsText s.toList
  · simp [Crates.serdeJson, h]
  · simp [Crates.serdeJson, h]

theorem lineServiceCap_capped : lineServiceCap (seconds 1767225600)
    (String.ofList (cappedText size)) = some signal := by
  have htext : Rfc8259.IsText (String.ofList (cappedText size)).toList := by
    rw [String.toList_ofList]
    exact (isObject_capped size).1.isText
  have hvalue : Crates.serdeJson (String.ofList (cappedText size)) = some (cappedValue size) :=
    (if_pos htext).trans (congrArg some (if_pos String.toList_ofList))
  have hstamp : ((cappedValue size).get "timestamp" >>= Json.asStr >>= Crates.parseRfc3339) =
      some (seconds 1767225600) := by
    rw [cappedValue_stamp, Option.bind_eq_bind, Option.bind_some]
    exact if_pos rfl
  rw [lineServiceCap_of_value hvalue hstamp (le_refl _), cappedValue_signal]

end Sample.Tail

open Sample.Tail in
theorem resumed_reports : Reports (seconds 1767225600)
    (tailServiceCapSince ((resumed size).tail 3) (seconds 1767225600))
    [String.ofList (cappedText size)] := by
  rw [← resumed_contained size]
  exact (tail_reports_iff fun s => (exact_json s).mp).mpr
    fun h => absurd (resumed_start size) (not_le.mpr h.1)

open Sample.Tail in
/-- A record that is quoted in an incomplete one is taken for a record of the log. -/
theorem quoted_record_reported :
    (∀ s, (Crates.serdeJson s).isSome ↔ Rfc8259.IsText s.toList) ∧
      tailStart (interrupted size).bytes.length maxJsonlTailBytes = 10 ∧
      tailServiceCapSince ((interrupted size).tail 10) (seconds 1767225600) = some signal ∧
      ¬Reports (seconds 1767225600)
        (tailServiceCapSince ((interrupted size).tail 10) (seconds 1767225600))
        (contained 10 (interrupted size).records) := by
  have hnot : 10 ∉ encode (cappedText size) :=
    fun hmem => newline_not_mem_capped size (newline_mem_encode.mp hmem)
  have hfound : tailServiceCapSince ((interrupted size).tail 10) (seconds 1767225600) =
      some signal := by
    rw [SessionLog.tail, interrupted_tail,
      tailServiceCapSince_line hnot fun s => (exact_json s).mp, fromUtf8Lossy_encode,
      lineServiceCap_capped]
  refine ⟨exact_json, interrupted_start size, hfound, fun h => ?_⟩
  rw [hfound] at h
  exact absurd (reports_nil.mp h) (by simp)

end Orchestrator
