import Hocon.Directory
import Hocon.Proofs.WellFormed
import Mathlib.Tactic.SplitIfs

/-!
# Reading the octets of a text

A text is stored as the octets that UTF-8 gives it (`Hocon.octetsOfText`), and the decoder reads
them as the text (`Hocon.Utf8.decode_octetsOfText`). So a text without carriage returns comes back
from a file as it is (`Hocon.textOfOctets_octetsOfText`). And it reads nothing else: what the octets
of no text leave is a fault (`Hocon.Utf8.exists_fault_iff`).

A character of one octet is read at once. Of any other character, the lead octet leaves a
`Hocon.Utf8.Pending` that *awaits* the code point of the character: what it holds are the leading
digits of the code point in base 64, and the range of the next octet admits the next digit
(`Hocon.Utf8.Pending.Awaits`). Each continuation octet brings one digit, so the proof for the octets
behind the lead octet is one induction on their number (`Hocon.Utf8.decodeFrom_continuation`, and
`Hocon.Utf8.exists_of_decodeFrom_some` the other way round). The narrower ranges behind some lead
octets exclude just the numbers that have a shorter form and those that are no characters, and are
met only where a lead octet is (`Hocon.Utf8.exists_awaits`, `Hocon.Utf8.lead_cases`).
-/

namespace Hocon

/-- The octets of a text, in UTF-8. -/
def octetsOfText (text : String) : List UInt8 :=
  text.toUTF8.data.toList

theorem octetsOfText_eq_flatMap (text : String) :
    octetsOfText text = text.toList.flatMap String.utf8EncodeChar := by
  have h : text.toUTF8 = text.toList.utf8Encode := by
    rw [String.toUTF8_eq_toByteArray, ← String.toByteArray_ofList, String.ofList_toList]
  rw [octetsOfText, h, List.utf8Encode, List.data_toByteArray]

namespace Utf8

variable {n v : Nat} {rest : List UInt8}

theorem toNat_ofNat_of_lt (h : n < 256) : (UInt8.ofNat n).toNat = n := by
  simpa using h

theorem ofNat_lt_iff (h : n < 256) : UInt8.ofNat n < 0x80 ↔ n < 0x80 := by
  rw [UInt8.lt_iff_toNat_lt, toNat_ofNat_of_lt h]
  rfl

/-! ### Continuation octets -/

/-- The last octets of a code point: one for each of its last digits in base 64. -/
def continuation (v : Nat) : Nat → List UInt8
  | 0 => []
  | k + 1 => .ofNat (v / 64 ^ k % 64 + 0x80) :: continuation v k

/-- A character that is being read as the one with a code point. -/
structure Pending.Awaits (p : Pending) (v : Nat) : Prop where
  /-- What has been read are the digits in front of those that are owed. -/
  code : p.code = v / 64 ^ (p.owed + 1)
  /-- The octet of the next digit is not too small. -/
  low : p.low ≤ v / 64 ^ p.owed % 64 + 0x80
  /-- The octet of the next digit is not too great. -/
  high : v / 64 ^ p.owed % 64 + 0x80 ≤ p.high

/-- **The octets that are owed complete the character.** -/
theorem decodeFrom_continuation (position : Nat) {p : Pending} (hp : p.Awaits v)
    (rest : List UInt8) :
    ∃ next, decodeFrom position (some p) (continuation v (p.owed + 1) ++ rest) =
      do return Char.ofNat v :: (← decodeFrom next none rest) := by
  induction hk : p.owed generalizing p position with
  | zero =>
    refine ⟨position + 1, ?_⟩
    obtain ⟨hcode, hlow, hhigh⟩ := hp
    rw [hk] at hcode hlow hhigh
    rw [continuation, List.cons_append, decodeFrom, toNat_ofNat_of_lt (by omega),
      if_neg (by omega), hcode, hk, Nat.add_sub_cancel,
      show v / 64 ^ (0 + 1) * 64 + v / 64 ^ 0 % 64 = v by omega]
    rfl
  | succ k ih =>
    obtain ⟨hcode, hlow, hhigh⟩ := hp
    rw [hk] at hcode hlow hhigh
    have hdigits : v / 64 ^ (k + 1 + 1) * 64 + v / 64 ^ (k + 1) % 64 = v / 64 ^ (k + 1) := by
      rw [Nat.pow_succ 64 (k + 1), ← Nat.div_div_eq_div_mul]
      omega
    rw [continuation, List.cons_append, decodeFrom, toNat_ofNat_of_lt (by omega),
      if_neg (by omega), hcode, hk, Nat.add_sub_cancel, hdigits]
    refine ih _ ⟨rfl, ?_, ?_⟩ rfl
    · exact Nat.le_add_left _ _
    · change _ ≤ 0xBF
      omega

/-! ### Lead octets -/

/-- The lead octet of a character of two octets. -/
theorem exists_awaits_two (position : Nat) (h : 0x80 ≤ v) (h' : v < 0x800) :
    ∃ p, lead? position (.ofNat (v / 64 % 32 + 0xC0)) = some p ∧ p.owed = 0 ∧ p.Awaits v := by
  simp only [lead?, toNat_ofNat_of_lt (n := v / 64 % 32 + 0xC0) (by omega)]
  rw [if_neg (by omega), if_pos (by omega)]
  refine ⟨_, rfl, rfl, ?_, ?_, ?_⟩ <;> dsimp only <;> omega

/-- The lead octet of a character of three octets. -/
theorem exists_awaits_three (position : Nat) (h : 0x800 ≤ v)
    (h' : v < 0xD800 ∨ 0xDFFF < v ∧ v < 0x10000) :
    ∃ p, lead? position (.ofNat (v / 4096 % 16 + 0xE0)) = some p ∧ p.owed = 1 ∧ p.Awaits v := by
  simp only [lead?, toNat_ofNat_of_lt (n := v / 4096 % 16 + 0xE0) (by omega)]
  rw [if_neg (by omega), if_neg (by omega)]
  split_ifs
  any_goals omega
  all_goals refine ⟨_, rfl, rfl, ?_, ?_, ?_⟩ <;> dsimp only <;> omega

/-- The lead octet of a character of four octets. -/
theorem exists_awaits_four (position : Nat) (h : 0x10000 ≤ v) (h' : v < 0x110000) :
    ∃ p, lead? position (.ofNat (v / 262144 % 8 + 0xF0)) = some p ∧ p.owed = 2 ∧ p.Awaits v := by
  simp only [lead?, toNat_ofNat_of_lt (n := v / 262144 % 8 + 0xF0) (by omega)]
  split_ifs
  any_goals omega
  all_goals refine ⟨_, rfl, rfl, ?_, ?_, ?_⟩ <;> dsimp only <;> omega

/-- A character of more than one octet starts with a lead octet, behind which it is awaited. -/
theorem exists_awaits (position : Nat) (c : Char) (h : 0x80 ≤ c.val.toNat) :
    ∃ (n : Nat) (p : Pending),
      String.utf8EncodeChar c = .ofNat n :: continuation c.val.toNat (p.owed + 1) ∧
      0x80 ≤ n ∧ n < 256 ∧ lead? position (.ofNat n) = some p ∧ p.Awaits c.val.toNat := by
  have hvalid : c.val.toNat < 0xD800 ∨ 0xDFFF < c.val.toNat ∧ c.val.toNat < 0x110000 := c.valid
  unfold String.utf8EncodeChar
  generalize c.val.toNat = v at h hvalid
  dsimp only
  rw [if_neg (by omega)]
  split_ifs with h₂ h₃
  · obtain ⟨p, hp, howed, hawaits⟩ := exists_awaits_two position h (by omega)
    exact ⟨_, p, by simp [howed, continuation], by omega, by omega, hp, hawaits⟩
  · obtain ⟨p, hp, howed, hawaits⟩ :=
      exists_awaits_three position (v := v) (by omega) (by omega)
    exact ⟨_, p, by simp [howed, continuation], by omega, by omega, hp, hawaits⟩
  · obtain ⟨p, hp, howed, hawaits⟩ :=
      exists_awaits_four position (v := v) (by omega) (by omega)
    exact ⟨_, p, by simp [howed, continuation], by omega, by omega, hp, hawaits⟩

/-! ### Texts -/

/-- **The octets of a character are read as the character.** -/
theorem decodeFrom_utf8EncodeChar (position : Nat) (c : Char) (rest : List UInt8) :
    ∃ next, decodeFrom position none (String.utf8EncodeChar c ++ rest) =
      do return c :: (← decodeFrom next none rest) := by
  have hc : Char.ofNat c.val.toNat = c := Char.ofNat_toNat c
  by_cases h : 0x80 ≤ c.val.toNat
  · obtain ⟨n, p, hoctets, hlow, hn, hlead, hawaits⟩ := exists_awaits position c h
    obtain ⟨next, hnext⟩ := decodeFrom_continuation (position + 1) hawaits rest
    refine ⟨next, ?_⟩
    rw [hc] at hnext
    have hb : ¬UInt8.ofNat n < 0x80 := by rw [ofNat_lt_iff hn]; omega
    rw [hoctets, List.cons_append, decodeFrom, if_neg hb, hlead]
    exact hnext
  · refine ⟨position + 1, ?_⟩
    have hb : UInt8.ofNat c.val.toNat < 0x80 := by rw [ofNat_lt_iff (by omega)]; omega
    rw [String.utf8EncodeChar, if_pos (by omega), List.cons_append, decodeFrom, if_pos hb,
      toNat_ofNat_of_lt (by omega), hc]
    rfl

theorem decodeFrom_flatMap (position : Nat) (cs : List Char) :
    decodeFrom position none (cs.flatMap String.utf8EncodeChar) = .ok cs := by
  induction cs generalizing position with
  | nil => rfl
  | cons c cs ih =>
    obtain ⟨next, hnext⟩ :=
      decodeFrom_utf8EncodeChar position c (cs.flatMap String.utf8EncodeChar)
    rw [List.flatMap_cons, hnext, ih]
    rfl

/-- **The octets of a text are read as the text.** -/
theorem decode_octetsOfText (text : String) : decode (octetsOfText text) = .ok text.toList := by
  rw [decode, octetsOfText_eq_flatMap, decodeFrom_flatMap]

/-! ### Octets that are no text -/

/-- A character that is read stands in front of others that are read. -/
theorem exists_of_cons_eq_ok {x : Except Fault (List Char)} {c : Char} {cs : List Char}
    (h : (do return c :: (← x)) = Except.ok cs) : ∃ cs', x = .ok cs' ∧ cs = c :: cs' := by
  cases x with
  | error e => cases h
  | ok cs' => exact ⟨cs', rfl, (Except.ok.inj h).symm⟩

/-- **Octets that complete a character** are the ones that are owed. -/
theorem exists_of_decodeFrom_some (position : Nat) {p : Pending} (hlow : 0x80 ≤ p.low)
    (hhigh : p.high ≤ 0xBF) {octets : List UInt8} {cs : List Char}
    (h : decodeFrom position (some p) octets = .ok cs) :
    ∃ v rest next cs', octets = continuation v (p.owed + 1) ++ rest ∧ p.Awaits v ∧
      cs = Char.ofNat v :: cs' ∧ decodeFrom next none rest = .ok cs' := by
  induction hk : p.owed generalizing p position octets with
  | zero =>
    cases octets with
    | nil => cases h
    | cons b rest =>
      rw [decodeFrom, hk] at h
      split_ifs at h with hrange
      rw [not_or, not_lt, not_lt] at hrange
      dsimp only at h
      obtain ⟨cs', hrest, rfl⟩ := exists_of_cons_eq_ok h
      refine ⟨_, rest, _, cs', ?_, ⟨?_, ?_, ?_⟩, rfl, hrest⟩
      · have hb : (p.code * 64 + (b.toNat - 0x80)) / 64 ^ 0 % 64 + 0x80 = b.toNat := by omega
        rw [continuation, hb, UInt8.ofNat_toNat]
        rfl
      all_goals
        rw [hk]
        omega
  | succ k ih =>
    cases octets with
    | nil => cases h
    | cons b rest =>
      rw [decodeFrom, hk] at h
      split_ifs at h with hrange
      rw [not_or, not_lt, not_lt] at hrange
      dsimp only at h
      -- the code point is that of the octets behind this one; its digits here are what was read
      obtain ⟨v, rest', next, cs', rfl, hawaits, rfl, hrest⟩ :=
        ih _ (le_refl 0x80) (le_refl 0xBF) h rfl
      have hcode : p.code * 64 + (b.toNat - 0x80) = v / 64 ^ (k + 1) := hawaits.code
      have hdigits : v / 64 ^ (k + 1 + 1) = v / 64 ^ (k + 1) / 64 := by
        rw [Nat.pow_succ 64 (k + 1), ← Nat.div_div_eq_div_mul]
      refine ⟨v, rest', next, cs', ?_, ⟨?_, ?_, ?_⟩, rfl, hrest⟩
      · have hb : v / 64 ^ (k + 1) % 64 + 0x80 = b.toNat := by omega
        have hnext : continuation v (k + 1 + 1) = b :: continuation v (k + 1) := by
          rw [continuation, hb, UInt8.ofNat_toNat]
        rw [hnext]
        rfl
      all_goals
        rw [hk]
        omega

/-- **What a lead octet leaves**: the digits of its class in front, and a range that excludes what
has a shorter form and what is no character. -/
theorem lead_cases {position : Nat} {b : UInt8} {p : Pending} (hp : lead? position b = some p) :
    (0x80 ≤ p.low ∧ p.high ≤ 0xBF) ∧
      (p.owed = 0 ∧ b.toNat = p.code + 0xC0 ∧ 2 ≤ p.code ∧ p.code < 0x20 ∨
      p.owed = 1 ∧ b.toNat = p.code + 0xE0 ∧ p.code < 0x10 ∧ (p.code = 0 → 0xA0 ≤ p.low) ∧
        (p.code = 0xD → p.high ≤ 0x9F) ∨
      p.owed = 2 ∧ b.toNat = p.code + 0xF0 ∧ p.code ≤ 4 ∧ (p.code = 0 → 0x90 ≤ p.low) ∧
        (p.code = 4 → p.high ≤ 0x8F)) := by
  simp only [lead?] at hp
  split_ifs at hp
  all_goals
    obtain rfl := Option.some.inj hp
    dsimp only
    omega

theorem toNat_val_ofNat (h : v.isValidChar) : (Char.ofNat v).val.toNat = v := by
  rw [Char.ofNat, dif_pos h]
  rfl

/-- **A lead octet and the octets that are owed are those of a character.** -/
theorem utf8EncodeChar_ofNat {position : Nat} {b : UInt8} {p : Pending}
    (hp : lead? position b = some p) (hv : p.Awaits v) :
    String.utf8EncodeChar (Char.ofNat v) = b :: continuation v (p.owed + 1) := by
  obtain ⟨hcode, hlow, hhigh⟩ := hv
  have hb : UInt8.ofNat b.toNat = b := UInt8.ofNat_toNat
  obtain ⟨hrange, hlead⟩ := lead_cases hp
  rcases hlead with ⟨howed, hfirst, h⟩ | ⟨howed, hfirst, h⟩ | ⟨howed, hfirst, h⟩
  all_goals
    rw [howed] at hcode hlow hhigh ⊢
    -- the range of the next octet keeps the number above its class and out of the surrogates
    have hvalid : v.isValidChar := by
      unfold Nat.isValidChar
      omega
    rw [← hb, hfirst]
    unfold String.utf8EncodeChar
    rw [toNat_val_ofNat hvalid]
    dsimp only
  · rw [if_neg (by omega), if_pos (by omega), show v / 64 % 32 = p.code by omega]
    simp [continuation]
  · rw [if_neg (by omega), if_neg (by omega), if_pos (by omega),
      show v / 4096 % 16 = p.code by omega]
    simp [continuation]
  · rw [if_neg (by omega), if_neg (by omega), if_neg (by omega),
      show v / 262144 % 8 = p.code by omega]
    simp [continuation]

/-- Octets that are read are none, or they are those of the first character and then others that are
read. -/
theorem decodeFrom_none_cases {position : Nat} {octets : List UInt8} {cs : List Char}
    (h : decodeFrom position none octets = .ok cs) :
    (octets = [] ∧ cs = []) ∨ ∃ c rest next cs', octets = String.utf8EncodeChar c ++ rest ∧
      cs = c :: cs' ∧ decodeFrom next none rest = .ok cs' := by
  cases octets with
  | nil => exact Or.inl ⟨rfl, (Except.ok.inj h).symm⟩
  | cons b rest =>
    right
    rw [decodeFrom] at h
    split_ifs at h with hb
    · have hn : b.toNat < 0x80 := UInt8.lt_iff_toNat_lt.mp hb
      have hvalid : b.toNat.isValidChar := by
        unfold Nat.isValidChar
        omega
      obtain ⟨cs', hrest, rfl⟩ := exists_of_cons_eq_ok h
      refine ⟨_, rest, _, cs', ?_, rfl, hrest⟩
      rw [String.utf8EncodeChar, toNat_val_ofNat hvalid, if_pos (by omega), UInt8.ofNat_toNat]
      rfl
    · cases hlead : lead? position b with
      | none =>
        rw [hlead] at h
        cases h
      | some p =>
        rw [hlead] at h
        obtain ⟨hlow, hhigh⟩ := (lead_cases hlead).1
        obtain ⟨v, rest', next, cs', rfl, hawaits, rfl, hrest⟩ :=
          exists_of_decodeFrom_some (position + 1) hlow hhigh h
        refine ⟨_, rest', next, cs', ?_, rfl, hrest⟩
        rw [utf8EncodeChar_ofNat hlead hawaits]
        rfl

theorem eq_flatMap_of_decodeFrom {position : Nat} {octets : List UInt8} {cs : List Char}
    (h : decodeFrom position none octets = .ok cs) :
    octets = cs.flatMap String.utf8EncodeChar := by
  induction cs generalizing position octets with
  | nil =>
    rcases decodeFrom_none_cases h with ⟨rfl, -⟩ | ⟨_, _, _, _, -, hcons, -⟩
    · rfl
    · cases hcons
  | cons c cs ih =>
    rcases decodeFrom_none_cases h with ⟨-, hnil⟩ | ⟨_, rest, _, _, rfl, hcons, hrest⟩
    · cases hnil
    · obtain ⟨rfl, rfl⟩ := List.cons.inj hcons
      rw [List.flatMap_cons, ← ih hrest]

/-- **What is read as a text are the octets of the text**, and no others. -/
theorem decode_eq_ok_iff {octets : List UInt8} {text : String} :
    decode octets = .ok text.toList ↔ octets = octetsOfText text := by
  refine ⟨fun h => ?_, ?_⟩
  · rw [octetsOfText_eq_flatMap, eq_flatMap_of_decodeFrom h]
  · rintro rfl
    exact decode_octetsOfText text

/-- **Octets of no text are at fault.** -/
theorem exists_fault_iff {octets : List UInt8} :
    (∃ fault, decode octets = .error fault) ↔ ∀ text, octets ≠ octetsOfText text := by
  constructor
  · rintro ⟨fault, hfault⟩ text rfl
    rw [decode_octetsOfText] at hfault
    cases hfault
  · intro hnone
    cases hcs : decode octets with
    | error fault => exact ⟨fault, rfl⟩
    | ok cs =>
      refine absurd ?_ (hnone (String.ofList cs))
      rw [← decode_eq_ok_iff, hcs, String.toList_ofList]

end Utf8

/-! ### Line breaks -/

theorem withLineFeeds_of_notMem {cs : List Char} (h : '\r' ∉ cs) : withLineFeeds cs = cs := by
  induction cs with
  | nil => rfl
  | cons c cs ih =>
    have hr : c ≠ '\r' := by rintro rfl; exact h (List.mem_cons_self ..)
    have hrest := ih fun hmem => h (List.mem_cons_of_mem _ hmem)
    rw [withLineFeeds] at hrest ⊢
    obtain ⟨line, lines, hlines⟩ := List.exists_cons_of_ne_nil (splitLines_ne_nil cs)
    by_cases hn : c = '\n'
    · rw [hn, splitLines, hlines, List.intercalate_cons_cons, ← hlines, hrest]
      rfl
    · rw [splitLines_cons hn hr, hlines]
      rw [hlines] at hrest
      cases lines with
      | nil => simpa using hrest
      | cons line' lines => simpa [List.intercalate_cons_cons] using hrest

/-- A text comes back from its octets but for its line breaks. -/
theorem textOfOctets_octets (text : String) :
    textOfOctets (octetsOfText text) = .ok (withLineFeeds text.toList) := by
  rw [textOfOctets, Utf8.decode_octetsOfText]
  rfl

/-- **A text comes back from its octets**, if it has no carriage returns. -/
theorem textOfOctets_octetsOfText {text : String} (h : '\r' ∉ text.toList) :
    textOfOctets (octetsOfText text) = .ok text.toList := by
  rw [textOfOctets_octets, withLineFeeds_of_notMem h]

end Hocon
