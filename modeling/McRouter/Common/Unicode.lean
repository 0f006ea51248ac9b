import McRouter.Common.Strings
import Mathlib.Data.List.DropRight
import Mathlib.Tactic.IntervalCases

/-!
# Runes

What Go's `unicode/utf8`, `unicode` and `strings` packages do with the
runes of a string. A string is read from the left; a byte that starts no
well-formed encoding is one rune `U+FFFD` of width one. UTF-8 is
self-synchronising, so the last rune of this reading is the one Go's
right-to-left scan finds.
-/

namespace McRouter

namespace Unicode

/-- `utf8.RuneError`. -/
def runeError : ℕ := 0xFFFD

/-- A continuation byte. -/
def isCont (b : UInt8) : Bool := 0x80 ≤ b && b ≤ 0xBF

/-- The second bytes Go accepts after a leading byte of three or four
bytes: the ranges that exclude overlong forms, surrogates and code points
past `U+10FFFF`. -/
def acceptsSecond (b0 b1 : UInt8) : Bool :=
  isCont b1 && (b0 != 0xE0 || 0xA0 ≤ b1) && (b0 != 0xED || b1 ≤ 0x9F) &&
    (b0 != 0xF0 || 0x90 ≤ b1) && (b0 != 0xF4 || b1 ≤ 0x8F)

/-- `utf8.DecodeRuneInString`: the first rune and its width. -/
def decodeRune : GoString → ℕ × ℕ
  | [] => (runeError, 0)
  | b0 :: t =>
    if b0 < 0x80 then (b0.toNat, 1)
    else if 0xC2 ≤ b0 ∧ b0 ≤ 0xDF then
      match t with
      | b1 :: _ =>
        if isCont b1 then (b0.toNat % 32 * 64 + b1.toNat % 64, 2) else (runeError, 1)
      | [] => (runeError, 1)
    else if 0xE0 ≤ b0 ∧ b0 ≤ 0xEF then
      match t with
      | b1 :: b2 :: _ =>
        if acceptsSecond b0 b1 && isCont b2 then
          (b0.toNat % 16 * 4096 + b1.toNat % 64 * 64 + b2.toNat % 64, 3)
        else (runeError, 1)
      | _ => (runeError, 1)
    else if 0xF0 ≤ b0 ∧ b0 ≤ 0xF4 then
      match t with
      | b1 :: b2 :: b3 :: _ =>
        if acceptsSecond b0 b1 && isCont b2 && isCont b3 then
          (b0.toNat % 8 * 262144 + b1.toNat % 64 * 4096 + b2.toNat % 64 * 64 + b3.toNat % 64, 4)
        else (runeError, 1)
      | _ => (runeError, 1)
    else (runeError, 1)

/-- A rune of a string, with the bytes it was read from. -/
structure Rune where
  code : ℕ
  bytes : GoString
deriving DecidableEq, Repr

/-- The runes of a string, with `skip` bytes of the current one still to
pass over. -/
def runesFrom : ℕ → GoString → List Rune
  | _, [] => []
  | skip + 1, _ :: t => runesFrom skip t
  | 0, b :: t =>
    let (code, width) := decodeRune (b :: t)
    ⟨code, (b :: t).take width⟩ :: runesFrom (width - 1) t

/-- The runes of a string, as `range` walks them. -/
def runes (s : GoString) : List Rune := runesFrom 0 s

/-- `utf8.ValidString`. -/
def validString (s : GoString) : Bool :=
  (runes s).all fun r => !(r.code == runeError && r.bytes.length == 1)

/-- `utf8.AppendRune`. -/
def encodeRune (r : ℕ) : GoString :=
  if r < 0x80 then [UInt8.ofNat r]
  else if r < 0x800 then [UInt8.ofNat (0xC0 + r / 64), UInt8.ofNat (0x80 + r % 64)]
  else if 0x10FFFF < r ∨ (0xD800 ≤ r ∧ r < 0xE000) then [0xEF, 0xBF, 0xBD]
  else if r < 0x10000 then
    [UInt8.ofNat (0xE0 + r / 4096), UInt8.ofNat (0x80 + r / 64 % 64), UInt8.ofNat (0x80 + r % 64)]
  else
    [UInt8.ofNat (0xF0 + r / 262144), UInt8.ofNat (0x80 + r / 4096 % 64),
      UInt8.ofNat (0x80 + r / 64 % 64), UInt8.ofNat (0x80 + r % 64)]

/-- `unicode.IsSpace`. -/
def isSpace (r : ℕ) : Bool :=
  (9 ≤ r && r ≤ 13) || r == 0x20 || r == 0x85 || r == 0xA0 || r == 0x1680 ||
    (0x2000 ≤ r && r ≤ 0x200A) || r == 0x2028 || r == 0x2029 || r == 0x202F || r == 0x205F ||
    r == 0x3000

/-- `strings.TrimSpace`. -/
def trimSpace (s : GoString) : GoString :=
  (((runes s).dropWhile fun r => isSpace r.code).rdropWhile fun r => isSpace r.code).flatMap
    Rune.bytes

/-- Every `stride`-th code point from `lo` to `hi` lower-cases to the one
`delta` away. -/
structure CaseRange where
  lo : ℕ
  hi : ℕ
  stride : ℕ
  delta : ℤ
deriving DecidableEq, Repr

/-- The simple lower-case mappings of the code points past ASCII. -/
def caseRanges : List CaseRange :=
  [⟨192, 214, 1, 32⟩, ⟨216, 222, 1, 32⟩, ⟨256, 302, 2, 1⟩, ⟨304, 304, 1, -199⟩, ⟨306, 310, 2, 1⟩,
   ⟨313, 327, 2, 1⟩, ⟨330, 374, 2, 1⟩, ⟨376, 376, 1, -121⟩, ⟨377, 381, 2, 1⟩, ⟨385, 385, 1, 210⟩,
   ⟨386, 388, 2, 1⟩, ⟨390, 390, 1, 206⟩, ⟨391, 391, 1, 1⟩, ⟨393, 394, 1, 205⟩, ⟨395, 395, 1, 1⟩,
   ⟨398, 398, 1, 79⟩, ⟨399, 399, 1, 202⟩, ⟨400, 400, 1, 203⟩, ⟨401, 401, 1, 1⟩,
   ⟨403, 403, 1, 205⟩, ⟨404, 404, 1, 207⟩, ⟨406, 406, 1, 211⟩, ⟨407, 407, 1, 209⟩,
   ⟨408, 408, 1, 1⟩, ⟨412, 412, 1, 211⟩, ⟨413, 413, 1, 213⟩, ⟨415, 415, 1, 214⟩, ⟨416, 420, 2, 1⟩,
   ⟨422, 422, 1, 218⟩, ⟨423, 423, 1, 1⟩, ⟨425, 425, 1, 218⟩, ⟨428, 428, 1, 1⟩, ⟨430, 430, 1, 218⟩,
   ⟨431, 431, 1, 1⟩, ⟨433, 434, 1, 217⟩, ⟨435, 437, 2, 1⟩, ⟨439, 439, 1, 219⟩, ⟨440, 440, 1, 1⟩,
   ⟨444, 444, 1, 1⟩, ⟨452, 452, 1, 2⟩, ⟨453, 453, 1, 1⟩, ⟨455, 455, 1, 2⟩, ⟨456, 456, 1, 1⟩,
   ⟨458, 458, 1, 2⟩, ⟨459, 475, 2, 1⟩, ⟨478, 494, 2, 1⟩, ⟨497, 497, 1, 2⟩, ⟨498, 500, 2, 1⟩,
   ⟨502, 502, 1, -97⟩, ⟨503, 503, 1, -56⟩, ⟨504, 542, 2, 1⟩, ⟨544, 544, 1, -130⟩,
   ⟨546, 562, 2, 1⟩, ⟨570, 570, 1, 10795⟩, ⟨571, 571, 1, 1⟩, ⟨573, 573, 1, -163⟩,
   ⟨574, 574, 1, 10792⟩, ⟨577, 577, 1, 1⟩, ⟨579, 579, 1, -195⟩, ⟨580, 580, 1, 69⟩,
   ⟨581, 581, 1, 71⟩, ⟨582, 590, 2, 1⟩, ⟨880, 882, 2, 1⟩, ⟨886, 886, 1, 1⟩, ⟨895, 895, 1, 116⟩,
   ⟨902, 902, 1, 38⟩, ⟨904, 906, 1, 37⟩, ⟨908, 908, 1, 64⟩, ⟨910, 911, 1, 63⟩, ⟨913, 929, 1, 32⟩,
   ⟨931, 939, 1, 32⟩, ⟨975, 975, 1, 8⟩, ⟨984, 1006, 2, 1⟩, ⟨1012, 1012, 1, -60⟩,
   ⟨1015, 1015, 1, 1⟩, ⟨1017, 1017, 1, -7⟩, ⟨1018, 1018, 1, 1⟩, ⟨1021, 1023, 1, -130⟩,
   ⟨1024, 1039, 1, 80⟩, ⟨1040, 1071, 1, 32⟩, ⟨1120, 1152, 2, 1⟩, ⟨1162, 1214, 2, 1⟩,
   ⟨1216, 1216, 1, 15⟩, ⟨1217, 1229, 2, 1⟩, ⟨1232, 1326, 2, 1⟩, ⟨1329, 1366, 1, 48⟩,
   ⟨4256, 4293, 1, 7264⟩, ⟨4295, 4295, 1, 7264⟩, ⟨4301, 4301, 1, 7264⟩, ⟨5024, 5103, 1, 38864⟩,
   ⟨5104, 5109, 1, 8⟩, ⟨7312, 7354, 1, -3008⟩, ⟨7357, 7359, 1, -3008⟩, ⟨7680, 7828, 2, 1⟩,
   ⟨7838, 7838, 1, -7615⟩, ⟨7840, 7934, 2, 1⟩, ⟨7944, 7951, 1, -8⟩, ⟨7960, 7965, 1, -8⟩,
   ⟨7976, 7983, 1, -8⟩, ⟨7992, 7999, 1, -8⟩, ⟨8008, 8013, 1, -8⟩, ⟨8025, 8031, 2, -8⟩,
   ⟨8040, 8047, 1, -8⟩, ⟨8072, 8079, 1, -8⟩, ⟨8088, 8095, 1, -8⟩, ⟨8104, 8111, 1, -8⟩,
   ⟨8120, 8121, 1, -8⟩, ⟨8122, 8123, 1, -74⟩, ⟨8124, 8124, 1, -9⟩, ⟨8136, 8139, 1, -86⟩,
   ⟨8140, 8140, 1, -9⟩, ⟨8152, 8153, 1, -8⟩, ⟨8154, 8155, 1, -100⟩, ⟨8168, 8169, 1, -8⟩,
   ⟨8170, 8171, 1, -112⟩, ⟨8172, 8172, 1, -7⟩, ⟨8184, 8185, 1, -128⟩, ⟨8186, 8187, 1, -126⟩,
   ⟨8188, 8188, 1, -9⟩, ⟨8486, 8486, 1, -7517⟩, ⟨8490, 8490, 1, -8383⟩, ⟨8491, 8491, 1, -8262⟩,
   ⟨8498, 8498, 1, 28⟩, ⟨8544, 8559, 1, 16⟩, ⟨8579, 8579, 1, 1⟩, ⟨9398, 9423, 1, 26⟩,
   ⟨11264, 11311, 1, 48⟩, ⟨11360, 11360, 1, 1⟩, ⟨11362, 11362, 1, -10743⟩,
   ⟨11363, 11363, 1, -3814⟩, ⟨11364, 11364, 1, -10727⟩, ⟨11367, 11371, 2, 1⟩,
   ⟨11373, 11373, 1, -10780⟩, ⟨11374, 11374, 1, -10749⟩, ⟨11375, 11375, 1, -10783⟩,
   ⟨11376, 11376, 1, -10782⟩, ⟨11378, 11378, 1, 1⟩, ⟨11381, 11381, 1, 1⟩,
   ⟨11390, 11391, 1, -10815⟩, ⟨11392, 11490, 2, 1⟩, ⟨11499, 11501, 2, 1⟩, ⟨11506, 11506, 1, 1⟩,
   ⟨42560, 42604, 2, 1⟩, ⟨42624, 42650, 2, 1⟩, ⟨42786, 42798, 2, 1⟩, ⟨42802, 42862, 2, 1⟩,
   ⟨42873, 42875, 2, 1⟩, ⟨42877, 42877, 1, -35332⟩, ⟨42878, 42886, 2, 1⟩, ⟨42891, 42891, 1, 1⟩,
   ⟨42893, 42893, 1, -42280⟩, ⟨42896, 42898, 2, 1⟩, ⟨42902, 42920, 2, 1⟩,
   ⟨42922, 42922, 1, -42308⟩, ⟨42923, 42923, 1, -42319⟩, ⟨42924, 42924, 1, -42315⟩,
   ⟨42925, 42925, 1, -42305⟩, ⟨42926, 42926, 1, -42308⟩, ⟨42928, 42928, 1, -42258⟩,
   ⟨42929, 42929, 1, -42282⟩, ⟨42930, 42930, 1, -42261⟩, ⟨42931, 42931, 1, 928⟩,
   ⟨42932, 42946, 2, 1⟩, ⟨42948, 42948, 1, -48⟩, ⟨42949, 42949, 1, -42307⟩,
   ⟨42950, 42950, 1, -35384⟩, ⟨42951, 42953, 2, 1⟩, ⟨42960, 42960, 1, 1⟩, ⟨42966, 42968, 2, 1⟩,
   ⟨42997, 42997, 1, 1⟩, ⟨65313, 65338, 1, 32⟩, ⟨66560, 66599, 1, 40⟩, ⟨66736, 66771, 1, 40⟩,
   ⟨66928, 66938, 1, 39⟩, ⟨66940, 66954, 1, 39⟩, ⟨66956, 66962, 1, 39⟩, ⟨66964, 66965, 1, 39⟩,
   ⟨68736, 68786, 1, 64⟩, ⟨71840, 71871, 1, 32⟩, ⟨93760, 93791, 1, 32⟩, ⟨125184, 125217, 1, 34⟩]

/-- A range applies to the code points it steps through. -/
def CaseRange.covers (c : CaseRange) (r : ℕ) : Bool :=
  c.lo ≤ r && r ≤ c.hi && (r - c.lo) % c.stride == 0

/-- `unicode.ToLower`. -/
def lowerRune (r : ℕ) : ℕ :=
  if r < 0x80 then (if 65 ≤ r ∧ r ≤ 90 then r + 32 else r)
  else match caseRanges.find? (·.covers r) with
    | some c => (r + c.delta).toNat
    | none => r

/-- `strings.ToLower`: the runes lower-cased and encoded again, so that a
byte outside any encoding comes out as the three bytes of `U+FFFD`. -/
def toLower (s : GoString) : GoString := (runes s).flatMap fun r => encodeRune (lowerRune r.code)

/-- `strconv.IsPrint`, exact up to Latin-1. Above it Go also excludes the
unassigned and format code points, which this counts as printable. -/
def isPrint (r : ℕ) : Bool := (0x20 ≤ r && r < 0x7F) || (0xA1 ≤ r && r != 0xAD)

/-- One hexadecimal digit, lower case. -/
def hexDigit (n : ℕ) : UInt8 := if n < 10 then UInt8.ofNat (48 + n) else UInt8.ofNat (87 + n)

/-- `n` in `width` hexadecimal digits. -/
def hexPad : ℕ → ℕ → GoString
  | 0, _ => []
  | width + 1, n => hexPad width (n / 16) ++ [hexDigit (n % 16)]

/-- How `%q` shows a rune between quotes `q`. -/
def quoteWith (q : UInt8) (r : ℕ) : GoString :=
  if r = q.toNat ∨ r = 92 then [92, UInt8.ofNat r]
  else if isPrint r then encodeRune r
  else match r with
    | 7 => go "\\a"
    | 8 => go "\\b"
    | 12 => go "\\f"
    | 10 => go "\\n"
    | 13 => go "\\r"
    | 9 => go "\\t"
    | 11 => go "\\v"
    | _ =>
      if r < 0x20 ∨ r = 0x7F then go "\\x" ++ hexPad 2 r
      else if r < 0x10000 then go "\\u" ++ hexPad 4 r
      else go "\\U" ++ hexPad 8 r

/-- `%q` of a byte or a rune. -/
def quoteRune (r : ℕ) : GoString := [39] ++ quoteWith 39 r ++ [39]

/-- `%q` of a string; a byte outside any encoding is shown as `\x`. -/
def quote (s : GoString) : GoString :=
  [34] ++ ((runes s).flatMap fun r =>
    if r.code = runeError ∧ r.bytes.length = 1 then go "\\x" ++ hexPad 2 (r.bytes.headD 0).toNat
    else quoteWith 34 r.code) ++ [34]

/-! ## ASCII strings

A string of ASCII bytes is its own runes, so on one every operation above
works byte by byte. -/

/-- All bytes below `0x80`. -/
def IsAscii (s : GoString) : Prop := ∀ b ∈ s, b < 0x80

instance (s : GoString) : Decidable (IsAscii s) := inferInstanceAs (Decidable (∀ b ∈ s, b < 0x80))

/-- An ASCII byte as a rune. -/
def ofByte (b : UInt8) : Rune := ⟨b.toNat, [b]⟩

theorem runes_eq_map {s : GoString} (h : IsAscii s) : runes s = s.map ofByte := by
  unfold runes
  induction s with
  | nil => rfl
  | cons b t ih =>
    have hb : b < 0x80 := h b (by simp)
    have ht : IsAscii t := fun c hc => h c (by simp [hc])
    simp only [runesFrom, decodeRune, if_pos hb, List.map_cons, Nat.sub_self]
    rw [ih ht]
    rfl

theorem flatMap_ofByte (s : GoString) : (s.map ofByte).flatMap Rune.bytes = s := by
  induction s with
  | nil => rfl
  | cons b t ih => simpa [ofByte] using ih

/-- **A string with no space at either end is its own trimming.** -/
theorem trimSpace_eq_self {s : GoString} (h : IsAscii s) (hsp : ∀ b ∈ s, isSpace b.toNat = false) :
    trimSpace s = s := by
  have hno : ∀ r ∈ s.map ofByte, ¬ isSpace r.code = true := by
    intro r hr
    obtain ⟨b, hb, rfl⟩ := List.mem_map.mp hr
    simp [ofByte, hsp b hb]
  have hdrop : (s.map ofByte).dropWhile (fun r => isSpace r.code) = s.map ofByte := by
    cases s with
    | nil => rfl
    | cons b t => exact List.dropWhile_cons_of_neg (hno _ (by simp))
  have hrdrop : (s.map ofByte).rdropWhile (fun r => isSpace r.code) = s.map ofByte := by
    rw [List.rdropWhile_eq_self_iff]
    intro hne
    exact hno _ (List.getLast_mem hne)
  rw [trimSpace, runes_eq_map h, hdrop, hrdrop, flatMap_ofByte]

/-- An ASCII letter in lower case. -/
def lowerByte (b : UInt8) : UInt8 := if 65 ≤ b ∧ b ≤ 90 then b + 32 else b

/-- A string with its ASCII letters in lower case. -/
def lowerAscii (s : GoString) : GoString := s.map lowerByte

/-- Neither `A` to `Z` nor `a` to `z`. -/
def NoLetter (c : UInt8) : Prop := ¬ (65 ≤ c ∧ c ≤ 90) ∧ ¬ (97 ≤ c ∧ c ≤ 122)

instance (c : UInt8) : Decidable (NoLetter c) :=
  inferInstanceAs (Decidable (¬ (65 ≤ c ∧ c ≤ 90) ∧ ¬ (97 ≤ c ∧ c ≤ 122)))

/-- What is no letter is the lower case of itself only. -/
theorem lowerByte_eq {b c : UInt8} (hc : NoLetter c) : lowerByte b = c ↔ b = c := by
  unfold lowerByte
  split
  · rename_i hb
    have h1 : 65 ≤ b.toNat := hb.1
    have h2 : b.toNat ≤ 90 := hb.2
    refine iff_of_false ?_ ?_
    · rintro rfl
      have hadd : (b + 32).toNat = b.toNat + 32 := by
        rw [UInt8.toNat_add, show (32 : UInt8).toNat = 32 from rfl]
        omega
      refine hc.2 ⟨?_, ?_⟩
      · show 97 ≤ (b + 32).toNat
        omega
      · show (b + 32).toNat ≤ 122
        omega
    · rintro rfl
      exact hc.1 hb
  · rfl

theorem lowerAscii_eq_nil {s : GoString} : lowerAscii s = [] ↔ s = [] := List.map_eq_nil_iff

theorem head_lowerAscii {s : GoString} {c : UInt8} (hc : NoLetter c) :
    (lowerAscii s).head? = some c ↔ s.head? = some c := by
  cases s with
  | nil => rfl
  | cons b t => simpa [lowerAscii] using lowerByte_eq hc

theorem getLast_lowerAscii {s : GoString} {c : UInt8} (hc : NoLetter c) :
    (lowerAscii s).getLast? = some c ↔ s.getLast? = some c := by
  rw [lowerAscii, List.getLast?_map, Option.map_eq_some_iff]
  constructor
  · rintro ⟨b, hb, hbc⟩
    rw [hb, (lowerByte_eq hc).mp hbc]
  · intro h
    exact ⟨c, h, (lowerByte_eq hc).mpr rfl⟩

theorem cons_of_lowerAscii {s t : GoString} {c : UInt8} (hc : NoLetter c) (h : lowerAscii s = c :: t) :
    ∃ rest, s = c :: rest ∧ lowerAscii rest = t := by
  obtain ⟨b, rest, rfl, hb, hrest⟩ := List.map_eq_cons_iff.mp h
  exact ⟨rest, by rw [(lowerByte_eq hc).mp hb], hrest⟩

theorem encodeRune_lowerRune : ∀ b : UInt8, b < 0x80 → encodeRune (lowerRune b.toNat) = [lowerByte b] :=
  Strings.forall_byte (by decide +kernel)

/-- On ASCII, `ToLower` works byte by byte. -/
theorem toLower_of_isAscii {s : GoString} (h : IsAscii s) : toLower s = lowerAscii s := by
  rw [toLower, runes_eq_map h, lowerAscii, List.flatMap_map, List.map_eq_flatMap]
  exact List.flatMap_congr fun b hb => encodeRune_lowerRune b (h b hb)

/-- **A string with no upper-case letter is its own lower case.** -/
theorem toLower_eq_self {s : GoString} (h : IsAscii s) (hlow : ∀ b ∈ s, ¬ (65 ≤ b ∧ b ≤ 90)) :
    toLower s = s := by
  have hmap : s.map lowerByte = s.map id := List.map_congr_left fun b hb => if_neg (hlow b hb)
  rw [toLower_of_isAscii h, lowerAscii, hmap, List.map_id]

/-- An ASCII string is valid UTF-8. -/
theorem validString_of_isAscii {s : GoString} (h : IsAscii s) : validString s = true := by
  rw [validString, runes_eq_map h, List.all_eq_true]
  intro r hr
  obtain ⟨b, hb, rfl⟩ := List.mem_map.mp hr
  have : b.toNat < 0x80 := h b hb
  have hne : b.toNat ≠ runeError := by simp only [runeError]; omega
  simp [ofByte, hne]

/-! ## Runes and bytes -/

theorem width_pos (b : UInt8) (t : GoString) : 0 < (decodeRune (b :: t)).2 := by
  simp only [decodeRune]
  repeat' split
  all_goals omega

/-- The runes of a string are all of its bytes. -/
theorem flatMap_bytes_runesFrom : ∀ (s : GoString) (skip : ℕ),
    (runesFrom skip s).flatMap Rune.bytes = s.drop skip := by
  intro s
  induction s with
  | nil => intro skip; simp [runesFrom]
  | cons b t ih =>
    intro skip
    cases skip with
    | succ skip => rw [runesFrom, ih, List.drop_succ_cons]
    | zero =>
      have hpos := width_pos b t
      obtain ⟨width, hwidth⟩ := Nat.exists_eq_succ_of_ne_zero (Nat.ne_of_gt hpos)
      rw [runesFrom, List.flatMap_cons, ih, hwidth, Nat.succ_sub_one, List.take_succ_cons,
        List.cons_append, List.take_append_drop, List.drop_zero]

theorem flatMap_bytes_runes (s : GoString) : (runes s).flatMap Rune.bytes = s :=
  flatMap_bytes_runesFrom s 0

/-- A rune is what decoding finds at its place. -/
theorem rune_of_mem_runesFrom : ∀ {s : GoString} {skip : ℕ} {r : Rune}, r ∈ runesFrom skip s →
    ∃ b t, r = ⟨(decodeRune (b :: t)).1, (b :: t).take (decodeRune (b :: t)).2⟩ := by
  intro s
  induction s with
  | nil => intro skip r hr; simp [runesFrom] at hr
  | cons b t ih =>
    intro skip r hr
    cases skip with
    | succ skip => exact ih hr
    | zero =>
      rcases List.mem_cons.mp hr with rfl | hr
      · exact ⟨b, t, rfl⟩
      · exact ih hr

theorem le_of_isCont {b : UInt8} (h : isCont b = true) : 0x80 ≤ b := by
  simp only [isCont, Bool.and_eq_true, decide_eq_true_eq] at h
  exact h.1

theorem le_of_acceptsSecond {b b' : UInt8} (h : acceptsSecond b b' = true) : 0x80 ≤ b' := by
  simp only [acceptsSecond, Bool.and_eq_true] at h
  exact le_of_isCont h.1.1.1.1

/-- A rune that does not begin with an ASCII byte has none. -/
theorem le_of_mem_take {b0 : UInt8} {t : GoString} (h : ¬ b0 < 0x80) :
    ∀ b ∈ (b0 :: t).take (decodeRune (b0 :: t)).2, 0x80 ≤ b := by
  have h0 : 0x80 ≤ b0 := UInt8.not_lt.mp h
  have hone : ∀ b ∈ (b0 :: t).take 1, 0x80 ≤ b := by simpa using h0
  simp only [decodeRune, if_neg h]
  split
  · -- two bytes
    split
    · split
      · rename_i hcont
        simpa using ⟨h0, le_of_isCont hcont⟩
      · exact hone
    · exact hone
  split
  · -- three
    split
    · split
      · rename_i hcont
        rw [Bool.and_eq_true] at hcont
        simpa using ⟨h0, le_of_acceptsSecond hcont.1, le_of_isCont hcont.2⟩
      · exact hone
    · exact hone
  split
  · -- four
    split
    · split
      · rename_i hcont
        rw [Bool.and_eq_true, Bool.and_eq_true] at hcont
        simpa using ⟨h0, le_of_acceptsSecond hcont.1.1, le_of_isCont hcont.1.2,
          le_of_isCont hcont.2⟩
      · exact hone
    · exact hone
  · exact hone

theorem second_of_acceptsSecond {b0 b1 : UInt8} (h : acceptsSecond b0 b1 = true) :
    b1.toNat ≤ 0xBF ∧ (b0.toNat = 0xE0 → 0xA0 ≤ b1.toNat) ∧ (b0.toNat = 0xF0 → 0x90 ≤ b1.toNat) := by
  simp only [acceptsSecond, isCont, Bool.and_eq_true, Bool.or_eq_true, bne_iff_ne, ne_eq,
    decide_eq_true_eq] at h
  obtain ⟨⟨⟨⟨⟨-, hle⟩, hE0⟩, -⟩, hF0⟩, -⟩ := h
  exact ⟨hle, fun heq => hE0.resolve_left (not_not.mpr (UInt8.toNat_inj.mp heq)),
    fun heq => hF0.resolve_left (not_not.mpr (UInt8.toNat_inj.mp heq))⟩

/-- And it is no ASCII character: the ranges of the leading and the second
bytes leave no room for one. -/
theorem le_code {b0 : UInt8} (t : GoString) (h : ¬ b0 < 0x80) : 0x80 ≤ (decodeRune (b0 :: t)).1 := by
  have herr : 0x80 ≤ runeError := by decide
  simp only [decodeRune, if_neg h]
  split
  · rename_i hb0
    have hlow : 0xC2 ≤ b0.toNat := hb0.1
    have hhigh : b0.toNat ≤ 0xDF := hb0.2
    split
    · split
      · dsimp only
        omega
      · exact herr
    · exact herr
  split
  · rename_i hb0
    have hlow : 0xE0 ≤ b0.toNat := hb0.1
    have hhigh : b0.toNat ≤ 0xEF := hb0.2
    split
    · split
      · rename_i hcont
        rw [Bool.and_eq_true] at hcont
        have hsecond := second_of_acceptsSecond hcont.1
        dsimp only
        omega
      · exact herr
    · exact herr
  split
  · rename_i hb0
    have hlow : 0xF0 ≤ b0.toNat := hb0.1
    have hhigh : b0.toNat ≤ 0xF4 := hb0.2
    split
    · split
      · rename_i hcont
        rw [Bool.and_eq_true, Bool.and_eq_true] at hcont
        have hsecond := second_of_acceptsSecond hcont.1.1
        dsimp only
        omega
      · exact herr
    · exact herr
  · exact herr

/-- A rune is an ASCII byte, or no ASCII character and made of other
bytes. -/
theorem rune_cases {s : GoString} {r : Rune} (hr : r ∈ runes s) :
    (∃ b, b < 0x80 ∧ r = ofByte b) ∨ 0x80 ≤ r.code ∧ ∃ b ∈ r.bytes, 0x80 ≤ b := by
  obtain ⟨b0, t, rfl⟩ := rune_of_mem_runesFrom hr
  by_cases h : b0 < 0x80
  · refine Or.inl ⟨b0, h, ?_⟩
    simp only [decodeRune, if_pos h, List.take_succ_cons, List.take_zero, ofByte]
  · refine Or.inr ⟨le_code t h, b0, ?_, UInt8.not_lt.mp h⟩
    obtain ⟨width, hwidth⟩ := Nat.exists_eq_succ_of_ne_zero (Nat.ne_of_gt (width_pos b0 t))
    rw [hwidth, List.take_succ_cons]
    exact List.mem_cons_self

/-- **Two characters past ASCII have a lower case in it**: `U+0130` and
`U+212A`, whose lower cases are `i` and `k`. -/
theorem lowerRune_lt {n : ℕ} (h : 0x80 ≤ n) : lowerRune n < 0x80 ↔ n = 0x130 ∨ n = 0x212A := by
  have htable : ∀ c ∈ caseRanges, (128 : ℤ) ≤ c.lo + c.delta ∨ c.lo = c.hi ∧ (c.lo = 0x130 ∨ c.lo = 0x212A) := by
    decide +kernel
  constructor
  · intro hlt
    rw [lowerRune, if_neg (by omega)] at hlt
    cases hf : caseRanges.find? (·.covers n) with
    | none =>
      rw [hf] at hlt
      dsimp only at hlt
      omega
    | some c =>
      rw [hf] at hlt
      dsimp only at hlt
      have hcovers := List.find?_some hf
      simp only [CaseRange.covers, Bool.and_eq_true, decide_eq_true_eq] at hcovers
      rcases htable c (List.mem_of_find?_eq_some hf) with hc | hc
      · omega
      · omega
  · rintro (rfl | rfl)
    · decide +kernel
    · decide +kernel

/-- What is no ASCII character is encoded without ASCII bytes. -/
theorem le_of_mem_encodeRune {n : ℕ} (h : 0x80 ≤ n) : ∀ b ∈ encodeRune n, 0x80 ≤ b := by
  have hbyte : ∀ {m : ℕ}, 0x80 ≤ m → m < 0x100 → 0x80 ≤ UInt8.ofNat m := by
    intro m hlow hhigh
    show 0x80 ≤ (UInt8.ofNat m).toNat
    rw [UInt8.toNat_ofNat']
    omega
  unfold encodeRune
  rw [if_neg (by omega)]
  split
  · simp only [List.forall_mem_cons, List.not_mem_nil, false_imp_iff, implies_true, and_true]
    exact ⟨hbyte (by omega) (by omega), hbyte (by omega) (by omega)⟩
  split
  · simp only [List.forall_mem_cons, List.not_mem_nil, false_imp_iff, implies_true, and_true]
    exact ⟨by decide, by decide, by decide⟩
  split
  · simp only [List.forall_mem_cons, List.not_mem_nil, false_imp_iff, implies_true, and_true]
    exact ⟨hbyte (by omega) (by omega), hbyte (by omega) (by omega), hbyte (by omega) (by omega)⟩
  · simp only [List.forall_mem_cons, List.not_mem_nil, false_imp_iff, implies_true, and_true]
    exact ⟨hbyte (by omega) (by omega), hbyte (by omega) (by omega), hbyte (by omega) (by omega),
      hbyte (by omega) (by omega)⟩

theorem encodeRune_ne_nil (n : ℕ) : encodeRune n ≠ [] := by
  unfold encodeRune
  split_ifs <;> simp

/-- The rune list of a string is its trimmed part between two runs of white
space. -/
theorem runes_trimSpace (s : GoString) : ∃ front core back, runes s = front ++ core ++ back ∧
    (∀ r ∈ front ++ back, isSpace r.code = true) ∧ core.flatMap Rune.bytes = trimSpace s := by
  let space : Rune → Bool := fun r => isSpace r.code
  let rest := (runes s).dropWhile space
  refine ⟨(runes s).takeWhile space, rest.rdropWhile space, rest.rtakeWhile space, ?_, ?_, rfl⟩
  · rw [List.append_assoc, List.rdropWhile_append_rtakeWhile, List.takeWhile_append_dropWhile]
  · intro r hr
    rcases List.mem_append.mp hr with hr | hr
    · exact List.mem_takeWhile_imp (p := space) hr
    · exact List.mem_rtakeWhile_imp (p := space) hr

/-- An ASCII byte is a rune of its own. -/
theorem eq_ofByte_of_mem {s : GoString} {r : Rune} (hr : r ∈ runes s) {b : UInt8}
    (hb : b ∈ r.bytes) (hascii : b < 0x80) : r = ofByte b := by
  obtain ⟨b0, t, rfl⟩ := rune_of_mem_runesFrom hr
  by_cases h : b0 < 0x80
  · simp only [decodeRune, if_pos h, List.take_succ_cons, List.take_zero, List.mem_singleton] at hb ⊢
    rw [hb, ofByte]
  · exact absurd hascii (UInt8.not_lt.mpr (le_of_mem_take h b hb))

end Unicode

end McRouter
