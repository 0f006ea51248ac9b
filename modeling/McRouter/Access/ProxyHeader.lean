import McRouter.Common.Format
import McRouter.Access.ProxyProtocol

/-!
# The bytes of a PROXY header

What the two versions of the header are, as bytes (`HeaderCode`), and that
`Read` takes exactly one of them off a stream. A v1 header ends at the
first CR LF, which the loop finds within 108 bytes or not at all; a v2
header ends where its own length field says, within 528. What comes after
the header is left for the handshake, and a stream that is refused has lost
no more than that either (`proxy_header_consumption`).
-/

namespace McRouter

namespace ProxyProtocol

open ReadM Strings Netip Bytes

/-! ## Lines -/

/-- No CR LF in it. -/
def Unbroken (line : GoString) : Prop := ¬ [13, 10] <:+: line

/-- One more byte breaks a line if the line now ends in CR LF. -/
theorem unbroken_snoc {line : GoString} {b : UInt8} :
    Unbroken (line ++ [b]) ↔ endsCRLF (line ++ [b]) = false ∧ Unbroken line := by
  rw [Unbroken, List.infix_concat_iff, not_or, ← endsCRLF_iff, Bool.not_eq_true]
  rfl

/-- What the loop of `readV1` reads after `line`, with `fuel` bytes to go:
up to the first byte that ends the line, or all of them. -/
inductive LineCode : ℕ → GoString → Format GoString
  | full {line : GoString} : LineCode 0 line [] line
  | stop {fuel : ℕ} {line : GoString} {b : UInt8} (hends : endsCRLF (line ++ [b]) = true) :
      LineCode (fuel + 1) line [b] (line ++ [b])
  | more {fuel : ℕ} {line word result : GoString} {b : UInt8}
      (hends : endsCRLF (line ++ [b]) = false) (hrest : LineCode fuel (line ++ [b]) word result) :
      LineCode (fuel + 1) line (b :: word) result

theorem reads_line : ∀ (fuel : ℕ) (line : GoString),
    Reads (readV1Loop bytesReader fuel line) (LineCode fuel line) := by
  intro fuel
  induction fuel with
  | zero =>
    intro line
    refine (Reads.pure line).congr fun word result => ?_
    constructor
    · rintro ⟨rfl, rfl⟩
      exact .full
    · rintro ⟨⟩
      exact ⟨rfl, rfl⟩
  | succ fuel ih =>
    intro line
    refine (Reads.bind (Reads.mapErr _ (Reads.readFull unexpectedEOF 1)) fun next =>
      Reads.ite (Reads.pure _) (ih (line ++ next))).congr fun word result => ?_
    constructor
    · rintro ⟨_, _, next, rfl, ⟨rfl, hlen⟩, ⟨hends, rfl, rfl⟩ | ⟨hends, hrest⟩⟩
      · obtain ⟨b, rfl⟩ := List.length_eq_one_iff.mp hlen
        rw [List.append_nil]
        exact .stop hends
      · obtain ⟨b, rfl⟩ := List.length_eq_one_iff.mp hlen
        exact .more (Bool.not_eq_true _ ▸ hends) hrest
    · intro hcode
      cases hcode with
      | @stop _ _ b hends => exact ⟨[b], [], [b], rfl, ⟨rfl, rfl⟩, Or.inl ⟨hends, rfl, rfl⟩⟩
      | @more _ _ word _ b hends hrest =>
        exact ⟨[b], word, [b], rfl, ⟨rfl, rfl⟩, Or.inr ⟨by rw [hends]; decide, hrest⟩⟩

/-- A line the loop returns, if it ends in CR LF, ends at the first one. -/
theorem line_of_lineCode {fuel : ℕ} {line word result : GoString} (h : LineCode fuel line word result) :
    Unbroken line → result = line ++ word ∧ word.length ≤ fuel ∧
      ∀ text, result = text ++ [13, 10] → Unbroken (text ++ [13]) := by
  induction h with
  | @full line =>
    intro hline
    refine ⟨(List.append_nil _).symm, le_rfl, ?_⟩
    rintro text rfl
    exact absurd (List.suffix_append text [13, 10]).isInfix hline
  | @stop fuel line b hends =>
    intro hline
    refine ⟨rfl, by simp, fun text htext => ?_⟩
    -- the last byte is the LF, and the line so far ends in the CR
    rw [show text ++ [13, 10] = (text ++ [13]) ++ [10] by simp] at htext
    rwa [← (List.append_inj' htext rfl).1]
  | @more fuel line word result b hends _ ih =>
    intro hline
    obtain ⟨hresult, hlen, hfirst⟩ := ih (unbroken_snoc.mpr ⟨hends, hline⟩)
    refine ⟨?_, by simpa using hlen, hfirst⟩
    rw [hresult, List.append_assoc, List.singleton_append]

/-- And the other way round. -/
theorem lineCode_of_line : ∀ {fuel : ℕ} {line word text : GoString}, line ++ word = text ++ [13, 10] →
    word ≠ [] → word.length ≤ fuel → Unbroken (text ++ [13]) →
    LineCode fuel line word (line ++ word) := by
  intro fuel
  induction fuel with
  | zero =>
    intro line word text _ hne hlen
    exact absurd (List.length_eq_zero_iff.mp (Nat.le_zero.mp hlen)) hne
  | succ fuel ih =>
    intro line word text heq hne hlen hfirst
    cases word with
    | nil => exact absurd rfl hne
    | cons b word =>
      rcases List.eq_nil_or_concat' word with rfl | ⟨word', c, rfl⟩
      · exact .stop (endsCRLF_iff.mpr ⟨text, heq.symm⟩)
      · -- there is a byte left, so the line so far is part of what has no CR LF
        have hsnoc : (line ++ b :: word') ++ [c] = (text ++ [13]) ++ [10] := by simpa using heq
        have hprefix : line ++ [b] <+: text ++ [13] := by
          rw [← (List.append_inj' hsnoc rfl).1]
          exact ⟨word', by simp⟩
        have hunbroken : Unbroken (line ++ [b]) := fun h => hfirst (h.trans hprefix.isInfix)
        have hrest : LineCode fuel (line ++ [b]) (word' ++ [c]) (line ++ [b] ++ (word' ++ [c])) :=
          ih (by simpa using heq) (by simp) (by simpa using hlen) hfirst
        rw [List.append_assoc, List.singleton_append] at hrest
        exact .more (unbroken_snoc.mp hunbroken).1 hrest

/-! ## Headers -/

/-- **A PROXY header** and the source address it names: a line of six
fields up to the first CR LF, or the signature, version, family and length
and as many bytes. -/
inductive HeaderCode : Format Addr
  | v1 {text family source dest sourcePort destPort : GoString} {addr : Addr}
      (htext : split 32 text = [go "PROXY", family, source, dest, sourcePort, destPort])
      (hfamily : family = go "TCP4" ∧ addr.is4 = true ∨ family = go "TCP6" ∧ addr.is6 = true)
      (hsource : parseAddr source = .ok addr) (hfirst : Unbroken (text ++ [13]))
      (hlen : (text ++ [13, 10]).length ≤ maxV1) : HeaderCode (text ++ [13, 10]) addr.unmap
  | v2 {family high low : UInt8} {payload : GoString} {addr : Addr}
      (hpayload : payload.length = high.toNat * 256 + low.toNat) (hlen : payload.length ≤ maxV2)
      (hsource : family = 0x11 ∧ 12 ≤ payload.length ∧ addr = addrFrom4 (payload.take 4) ∨
        family = 0x21 ∧ 36 ≤ payload.length ∧ addr = addrFrom16 (payload.take 16)) :
      HeaderCode (v2sig ++ [0x21, family, high, low] ++ payload) addr

theorem take_crlf (text : GoString) :
    (text ++ [13, 10]).take ((text ++ [13, 10]).length - 2) = text := by
  simp

theorem tcp4_ne_tcp6 : go "TCP4" ≠ go "TCP6" := by decide

/-- What `readV1` makes of a line. -/
theorem parseV1_eq_ok {line : GoString} {addr : Addr} : parseV1 line = .ok addr ↔
    ∃ text family source dest sourcePort destPort a, line = text ++ [13, 10] ∧
      split 32 text = [go "PROXY", family, source, dest, sourcePort, destPort] ∧
      (family = go "TCP4" ∧ a.is4 = true ∨ family = go "TCP6" ∧ a.is6 = true) ∧
      parseAddr source = .ok a ∧ addr = a.unmap := by
  constructor
  · intro h
    unfold parseV1 at h
    split at h
    · cases h
    rename_i hends
    obtain ⟨text, rfl⟩ := endsCRLF_iff.mp (by simpa using hends)
    rw [take_crlf] at h
    split at h
    · rename_i proxy family source dest sourcePort destPort hsplit
      split at h
      · cases h
      rename_i hproxy
      split at h
      · cases h
      rename_i a ha
      split at h
      · cases h
      rename_i hkind
      cases h
      simp only [not_or, not_and, not_not, Bool.not_eq_true', Bool.not_eq_false] at hproxy hkind
      obtain ⟨rfl, hfamily⟩ := hproxy
      refine ⟨text, family, source, dest, sourcePort, destPort, a, rfl, hsplit, ?_, ha, rfl⟩
      by_cases h4 : family = go "TCP4"
      · exact Or.inl ⟨h4, hkind.1 h4⟩
      · exact Or.inr ⟨hfamily h4, hkind.2 (hfamily h4)⟩
    · cases h
  · rintro ⟨text, family, source, dest, sourcePort, destPort, a, rfl, htext, hfamily, hsource, rfl⟩
    have hends : endsCRLF (text ++ [13, 10]) = true := endsCRLF_iff.mpr (List.suffix_append _ _)
    unfold parseV1
    rw [take_crlf, htext, hends]
    simp only [hsource]
    rcases hfamily with ⟨rfl, h4⟩ | ⟨rfl, h6⟩
    · simp [h4, tcp4_ne_tcp6]
    · simp [h6, tcp4_ne_tcp6.symm]

/-- The fields of sixteen bytes. -/
theorem eq_fields {header : GoString} (h : header.length = 16) : header = header.take 12 ++
    [header.getD 12 0, header.getD 13 0, header.getD 14 0, header.getD 15 0] := by
  refine List.ext_getElem (by simp [h]) fun i hi hi' => ?_
  by_cases hlow : i < 12
  · rw [List.getElem_append_left (by simp [h, hlow]), List.getElem_take]
  · rw [List.getElem_append_right (by simp [h]; omega)]
    have hlen : (header.take 12).length = 12 := by simp [h]
    simp only [hlen]
    obtain rfl | rfl | rfl | rfl : i = 12 ∨ i = 13 ∨ i = 14 ∨ i = 15 := by omega
    all_goals simp [List.getD_eq_getElem?_getD, h]

/-- What `readV2` makes of the sixteen bytes. -/
theorem v2Length_eq_ok {header : GoString} (h : header.length = 16) {length : ℕ} :
    v2Length header = .ok length ↔ ∃ high low,
      header = v2sig ++ [0x21, header.getD 13 0, high, low] ∧
      length = high.toNat * 256 + low.toNat ∧ length ≤ maxV2 := by
  constructor
  · intro hok
    unfold v2Length at hok
    split at hok
    · cases hok
    rename_i hsig
    dsimp only at hok
    split at hok
    · cases hok
    rename_i hmax
    cases hok
    simp only [not_or, not_not] at hsig
    refine ⟨header.getD 14 0, header.getD 15 0, ?_, rfl, by omega⟩
    rw [← hsig.1, ← hsig.2]
    exact eq_fields h
  · rintro ⟨high, low, hheader, rfl, hmax⟩
    have h14 : header.getD 14 0 = high := by rw [hheader]; rfl
    have h15 : header.getD 15 0 = low := by rw [hheader]; rfl
    have hsig : ¬ (header.take 12 ≠ v2sig ∨ header.getD 12 0 ≠ 0x21) := by
      rw [hheader]
      simp [v2sig]
    unfold v2Length
    rw [if_neg hsig]
    simp only [h14, h15]
    rw [if_neg (by omega)]

/-- What `readV2` makes of the rest. -/
theorem v2Source_eq_ok {family : UInt8} {payload : GoString} {addr : Addr} :
    v2Source family payload = .ok addr ↔
      family = 0x11 ∧ 12 ≤ payload.length ∧ addr = addrFrom4 (payload.take 4) ∨
        family = 0x21 ∧ 36 ≤ payload.length ∧ addr = addrFrom16 (payload.take 16) := by
  unfold v2Source
  by_cases h4 : family = 0x11
  · subst h4
    by_cases hlen : payload.length < 12
    · simp [hlen]
    · simp [hlen, Nat.le_of_not_lt hlen, eq_comm]
  · by_cases h6 : family = 0x21
    · subst h6
      by_cases hlen : payload.length < 36
      · simp [hlen]
      · simp [hlen, Nat.le_of_not_lt hlen, eq_comm]
    · simp [h4, h6]

theorem unbroken_singleton (b : UInt8) : Unbroken [b] := by
  intro h
  have hlen : 2 ≤ 1 := h.length_le
  omega

/-- A v1 header begins with a `P`. -/
theorem eq_cons_of_split {text : GoString} {fields : List GoString}
    (h : split 32 text = go "PROXY" :: fields) : ∃ t, text = 80 :: t := by
  have hjoin : [32].intercalate (split 32 text) = text := List.intercalate_splitOn 32
  rw [h] at hjoin
  cases fields with
  | nil => exact ⟨_, hjoin.symm⟩
  | cons field fields =>
    rw [List.intercalate_cons_cons] at hjoin
    exact ⟨_, hjoin.symm⟩

/-- **`Read` reads headers.** -/
theorem reads_header : Reads (read bytesReader) HeaderCode := by
  refine (Reads.bind (Reads.mapErr _ (Reads.readFull unexpectedEOF 1)) fun first => Reads.ite
    (Reads.bind (reads_line _ _) fun line => Reads.ofExcept (parseV1 line))
    (Reads.bind (Reads.mapErr _ (Reads.readFull unexpectedEOF 15)) fun rest =>
      Reads.bind (Reads.ofExcept (v2Length (first.headD 0 :: rest))) fun length =>
      Reads.bind (Reads.mapErr _ (Reads.readFull unexpectedEOF length)) fun payload =>
      Reads.ofExcept (v2Source ((first.headD 0 :: rest).getD 13 0) payload))).congr fun word addr => ?_
  constructor
  · rintro ⟨_, _, first, rfl, ⟨rfl, hone⟩, ⟨hp, word, _, line, rfl, hline, rfl, hparse⟩ |
      ⟨hp, rest, _, _, rfl, ⟨rfl, hrest⟩, _, _, length, rfl, ⟨rfl, hlength⟩, payload, _, _, rfl,
        ⟨rfl, hpayload⟩, rfl, hsource⟩⟩
    · obtain ⟨b, rfl⟩ := List.length_eq_one_iff.mp hone
      obtain ⟨rfl, hlen, hfirst⟩ := line_of_lineCode hline (unbroken_singleton _)
      obtain ⟨text, family, source, dest, sourcePort, destPort, a, htext, hsplit, hfamily, ha, rfl⟩ :=
        parseV1_eq_ok.mp hparse
      have hword : [b] ++ (word ++ []) = text ++ [13, 10] := by
        rw [List.append_nil]
        exact htext
      rw [hword]
      refine .v1 hsplit hfamily ha (hfirst text htext) ?_
      rw [← hword, List.append_nil, List.singleton_append, List.length_cons]
      exact Nat.succ_le_succ hlen
    · obtain ⟨b, rfl⟩ := List.length_eq_one_iff.mp hone
      have hlen : (b :: rest).length = 16 := by rw [List.length_cons, hrest]
      obtain ⟨high, low, hheader, hlength, hmax⟩ := (v2Length_eq_ok hlen).mp hlength
      have hcode : HeaderCode (v2sig ++ [0x21, (b :: rest).getD 13 0, high, low] ++ payload) addr :=
        .v2 (by omega) (by omega) (v2Source_eq_ok.mp hsource)
      rw [List.append_nil, List.nil_append, List.singleton_append, ← List.cons_append]
      rwa [← hheader] at hcode
  · intro hcode
    cases hcode with
    | @v1 text family source dest sourcePort destPort a htext hfamily hsource hfirst hlen =>
      obtain ⟨t, rfl⟩ := eq_cons_of_split htext
      have hline : LineCode (maxV1 - 1) [80] (t ++ [13, 10]) ([80] ++ (t ++ [13, 10])) :=
        lineCode_of_line rfl (by simp) (by simpa using Nat.le_sub_one_of_lt hlen) hfirst
      refine ⟨[80], t ++ [13, 10], [80], rfl, ⟨rfl, rfl⟩, Or.inl ⟨rfl, t ++ [13, 10], [], _,
        (List.append_nil _).symm, hline, rfl, ?_⟩⟩
      exact parseV1_eq_ok.mpr ⟨_, family, source, dest, sourcePort, destPort, a, rfl, htext, hfamily,
        hsource, rfl⟩
    | @v2 family high low payload _ hpayload hlen hsource =>
      have hlength : v2Length (v2sig ++ [0x21, family, high, low]) = .ok payload.length :=
        (v2Length_eq_ok rfl).mpr ⟨high, low, rfl, hpayload, hlen⟩
      exact ⟨[13], _, [13], rfl, ⟨rfl, rfl⟩, Or.inr ⟨by decide,
        [10, 13, 10, 0, 13, 10, 81, 85, 73, 84, 10, 0x21, family, high, low], payload, _, rfl,
        ⟨rfl, rfl⟩, [], payload, payload.length, rfl, ⟨rfl, hlength⟩, payload, [], payload,
        (List.append_nil _).symm, ⟨rfl, rfl⟩, rfl, v2Source_eq_ok.mpr hsource⟩⟩

/-! ## At most one header -/

theorem takes_line : ∀ (fuel : ℕ) (line : GoString), Takes fuel (readV1Loop bytesReader fuel line) := by
  intro fuel
  induction fuel with
  | zero => intro line; exact .pure _
  | succ fuel ih =>
    intro line
    refine Takes.mono (m := 1 + fuel) ?_ (by omega)
    exact .bind (.mapErr _ (.readFull unexpectedEOF 1)) fun _ next _ _ =>
      .ite (.mono (.pure _) (Nat.zero_le fuel)) (ih (line ++ next))

theorem takes_v1 (first : UInt8) : Takes (maxV1 - 1) (readV1 bytesReader first) :=
  .bind (takes_line (maxV1 - 1) [first]) fun _ _ _ _ => .ofExcept _

theorem takes_v2 (first : UInt8) : Takes (15 + maxV2) (readV2 bytesReader first) := by
  refine .bind (.mapErr _ (.readFull unexpectedEOF 15)) fun _ rest _ hread => ?_
  refine Takes.mono (m := 0 + maxV2) (.bind (.ofExcept _) fun _ length _ hlength => ?_) (by omega)
  refine Takes.mono (m := length + 0) (.bind (.mapErr _ (.readFull unexpectedEOF length))
    fun _ _ _ _ => .ofExcept _) ?_
  -- a length that passes is within the limit
  obtain ⟨-, hrest, -⟩ := readFull_eq_ok (mapErr_eq_ok.mp hread)
  have hlen : (first :: rest).length = 16 := by rw [List.length_cons, hrest]
  obtain ⟨_, _, -, -, hmax⟩ := (v2Length_eq_ok hlen).mp (ofExcept_eq_ok.mp hlength).1
  omega

/-- **`Read` takes one header at most**, of the version its first byte
gives. -/
theorem takes_header (s : Bytes Err) : ∃ taken, s.rest = taken ++ (read bytesReader s).2.rest ∧
    taken.length ≤ if s.rest.head? = some 80 then maxV1 else 16 + maxV2 := by
  obtain ⟨rest, e⟩ := s
  cases rest with
  | nil => exact ⟨[], rfl, Nat.zero_le _⟩
  | cons b t =>
    have hfirst : mapErr Prod.snd (bytesReader.readFull 1) ⟨b :: t, e⟩ = (.ok [b], ⟨t, e⟩) :=
      mapErr_eq_ok.mpr (readFull_append unexpectedEOF [b] t e)
    have hread : read bytesReader ⟨b :: t, e⟩ =
        (if b = 80 then readV1 bytesReader b else readV2 bytesReader b) ⟨t, e⟩ :=
      bind_of_ok hfirst
    rw [hread]
    by_cases hb : b = 80
    · obtain ⟨taken, htaken, hlen⟩ := takes_v1 b ⟨t, e⟩
      rw [if_pos hb, if_pos (by rw [hb]; rfl)]
      refine ⟨b :: taken, congrArg (b :: ·) htaken, ?_⟩
      rw [List.length_cons]
      exact Nat.succ_le_succ hlen
    · obtain ⟨taken, htaken, hlen⟩ := takes_v2 b ⟨t, e⟩
      rw [if_neg hb, if_neg (by simpa using hb)]
      refine ⟨b :: taken, congrArg (b :: ·) htaken, ?_⟩
      rw [List.length_cons]
      omega

/-- The bytes of a header. -/
theorem length_of_headerCode {header : GoString} {addr : Addr} (h : HeaderCode header addr) :
    header.head? = some 80 ∧ header.length ≤ maxV1 ∨
      header.head? = some 13 ∧ 16 ≤ header.length ∧ header.length ≤ 16 + maxV2 := by
  cases h with
  | v1 htext hfamily hsource hfirst hlen =>
    obtain ⟨t, rfl⟩ := eq_cons_of_split htext
    exact Or.inl ⟨rfl, hlen⟩
  | v2 hpayload hlen hsource =>
    refine Or.inr ⟨rfl, ?_⟩
    rw [List.length_append, List.length_append]
    exact ⟨Nat.le_add_right 16 _, Nat.add_le_add_left hlen 16⟩

/-- **Consumption of the PROXY header.** What is accepted is one header and
nothing else is gone, a header is accepted whatever follows it, and in no
case is more gone than the longest header of its version, for a connection
that delivers its bytes in any pieces. -/
theorem proxy_header_consumption :
    (∀ (conn conn' : Conn) (addr : Addr), read connReader conn = (.ok addr, conn') →
      ∃ header, HeaderCode header addr ∧ conn.view.rest = header ++ conn'.view.rest) ∧
    (∀ (header more : GoString) (addr : Addr) (conn : Conn), HeaderCode header addr →
      conn.view.rest = header ++ more →
      ∃ conn', read connReader conn = (.ok addr, conn') ∧ conn'.view.rest = more) ∧
    (∀ (header : GoString) (addr : Addr), HeaderCode header addr →
      header.head? = some 80 ∧ header.length ≤ 108 ∨
        header.head? = some 13 ∧ 16 ≤ header.length ∧ header.length ≤ 528) ∧
    ∀ conn : Conn, ∃ taken, conn.view.rest = taken ++ (read connReader conn).2.view.rest ∧
      taken.length ≤ if conn.view.rest.head? = some 80 then 108 else 528 := by
  have hsim := sim_read (source_simulates unexpectedEOF)
  refine ⟨?_, ?_, fun _ _ => length_of_headerCode, ?_⟩
  · intro conn conn' addr hread
    obtain ⟨header, hcode, hview⟩ := Reads.of_sim hsim reads_header hread
    exact ⟨header, hcode, congrArg Bytes.rest hview⟩
  · intro header more addr conn hcode hrest
    have hview : conn.view = ⟨header ++ more, conn.err⟩ := by
      rw [← hrest]
      rfl
    obtain ⟨conn', hread, hview'⟩ := Reads.sim_append hsim reads_header hcode hview
    exact ⟨conn', hread, congrArg Bytes.rest hview'⟩
  · intro conn
    have hread := takes_header conn.view
    rw [hsim conn] at hread
    exact hread

end ProxyProtocol

end McRouter
