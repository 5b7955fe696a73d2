import AuthSec.Lib.Unicode
import Mathlib.Data.List.Infix

/-!
# Strings of the Go library

What the package uses of `strings`, `unicode`, `net/url` and `regexp`.  Texts that come from
outside are bytes; identifiers are strings.

* `toLower_toLower`: lower case is lower case already;
* `lowerChar_eq_sign`: a sign comes from itself only, so that the parts of an action keep their
  borders in lower case;
* `trimSpaceBytes_of_ends`: a text in braces is not trimmed;
* `trimSpaceBytes_spec`: no space is left in front or behind.
-/

namespace AuthSec

open List

/-! ## Lower case -/

/-- The code points `lo`, `lo + stride`, …, `hi`, of which the first becomes `target`; the others
keep their distance to it. -/
structure LowerRange where
  lo : ℕ
  hi : ℕ
  stride : ℕ
  target : ℕ

/-- Runs of upper case code points beyond ASCII: the first, the last and what the first becomes. -/
def lowerRuns : List (ℕ × ℕ × ℕ) :=
  [(192, 214, 224), (216, 222, 248), (393, 394, 598), (433, 434, 650), (904, 906, 941),
    (910, 911, 973), (913, 929, 945), (931, 939, 963), (1021, 1023, 891), (1024, 1039, 1104),
    (1040, 1071, 1072), (1329, 1366, 1377), (4256, 4293, 11520), (5024, 5103, 43888),
    (5104, 5109, 5112), (7312, 7354, 4304), (7357, 7359, 4349), (7944, 7951, 7936),
    (7960, 7965, 7952), (7976, 7983, 7968), (7992, 7999, 7984), (8008, 8013, 8000),
    (8040, 8047, 8032), (8072, 8079, 8064), (8088, 8095, 8080), (8104, 8111, 8096),
    (8120, 8121, 8112), (8122, 8123, 8048), (8136, 8139, 8050), (8152, 8153, 8144),
    (8154, 8155, 8054), (8168, 8169, 8160), (8170, 8171, 8058), (8184, 8185, 8056),
    (8186, 8187, 8060), (8544, 8559, 8560), (9398, 9423, 9424), (11264, 11311, 11312),
    (11390, 11391, 575), (65313, 65338, 65345), (66560, 66599, 66600), (66736, 66771, 66776),
    (66928, 66938, 66967), (66940, 66954, 66979), (66956, 66962, 66995), (66964, 66965, 67003),
    (68736, 68786, 68800), (71840, 71871, 71872), (93760, 93791, 93792), (125184, 125217, 125218)]

/-- Runs in which every other code point is upper case and becomes the next one. -/
def lowerPairs : List (ℕ × ℕ) :=
  [(256, 302), (306, 310), (313, 327), (330, 374), (377, 381), (386, 388), (416, 420), (435, 437),
    (459, 475), (478, 494), (498, 500), (504, 542), (546, 562), (582, 590), (880, 882), (984, 1006),
    (1120, 1152), (1162, 1214), (1217, 1229), (1232, 1326), (7680, 7828), (7840, 7934),
    (11367, 11371), (11392, 11490), (11499, 11501), (42560, 42604), (42624, 42650), (42786, 42798),
    (42802, 42862), (42873, 42875), (42878, 42886), (42896, 42898), (42902, 42920), (42932, 42946),
    (42951, 42953), (42966, 42968)]

/-- Upper case code points that stand alone. -/
def lowerSingles : List (ℕ × ℕ) :=
  [(304, 105), (376, 255), (385, 595), (390, 596), (391, 392), (395, 396), (398, 477), (399, 601),
    (400, 603), (401, 402), (403, 608), (404, 611), (406, 617), (407, 616), (408, 409), (412, 623),
    (413, 626), (415, 629), (422, 640), (423, 424), (425, 643), (428, 429), (430, 648), (431, 432),
    (439, 658), (440, 441), (444, 445), (452, 454), (453, 454), (455, 457), (456, 457), (458, 460),
    (497, 499), (502, 405), (503, 447), (544, 414), (570, 11365), (571, 572), (573, 410),
    (574, 11366), (577, 578), (579, 384), (580, 649), (581, 652), (886, 887), (895, 1011),
    (902, 940), (908, 972), (975, 983), (1012, 952), (1015, 1016), (1017, 1010), (1018, 1019),
    (1216, 1231), (4295, 11559), (4301, 11565), (7838, 223), (8124, 8115), (8140, 8131),
    (8172, 8165), (8188, 8179), (8486, 969), (8490, 107), (8491, 229), (8498, 8526), (8579, 8580),
    (11360, 11361), (11362, 619), (11363, 7549), (11364, 637), (11373, 593), (11374, 625),
    (11375, 592), (11376, 594), (11378, 11379), (11381, 11382), (11506, 11507), (42877, 7545),
    (42891, 42892), (42893, 613), (42922, 614), (42923, 604), (42924, 609), (42925, 620),
    (42926, 618), (42928, 670), (42929, 647), (42930, 669), (42931, 43859), (42948, 42900),
    (42949, 642), (42950, 7566), (42960, 42961), (42997, 42998)]

/-- The upper case code points beyond ASCII: the lower case column of `unicode.CaseRanges`. -/
def lowerRanges : List LowerRange :=
  ⟨8025, 8031, 2, 8017⟩ :: lowerRuns.map (fun (lo, hi, target) => ⟨lo, hi, 1, target⟩) ++
    lowerPairs.map (fun (lo, hi) => ⟨lo, hi, 2, lo + 1⟩) ++
    lowerSingles.map fun (c, target) => ⟨c, c, 1, target⟩

def LowerRange.covers (r : LowerRange) (n : ℕ) : Bool :=
  r.lo ≤ n && n ≤ r.hi && (n - r.lo) % r.stride == 0

/-- The code point that the last one of the range becomes. -/
def LowerRange.last (r : LowerRange) : ℕ :=
  r.target + (r.hi - r.lo)

def lowerNat (n : ℕ) : ℕ :=
  match lowerRanges.find? (·.covers n) with
  | some r => r.target + (n - r.lo)
  | none => n

/-- `unicode.ToLower`. -/
def lowerChar (c : Char) : Char :=
  if c.toNat < 128 then
    if 65 ≤ c.toNat ∧ c.toNat ≤ 90 then Char.ofNat (c.toNat + 32) else c
  else Char.ofNat (lowerNat c.toNat)

/-- `strings.ToLower`. -/
def toLower (s : String) : String :=
  String.ofList (s.toList.map lowerChar)

/-- What holds of every range: its targets are characters, and they are not ASCII but for the two
letters that compatibility characters become. -/
def LowerRange.ok (r : LowerRange) : Bool :=
  (decide (r.last < 0xD800) || decide (0xE000 ≤ r.target ∧ r.last < 0x110000)) &&
    (decide (128 ≤ r.target) || decide (r.lo = r.hi ∧ (r.target = 105 ∨ r.target = 107)))

/-- No target of `r` is in the range `q`. -/
def LowerRange.clear (r q : LowerRange) : Bool :=
  decide (r.last < q.lo) || decide (q.hi < r.target) ||
    decide (q.stride = 2 ∧ (r.stride = 2 ∨ r.lo = r.hi) ∧ (r.target + q.lo) % 2 = 1)

lemma lowerRanges_ok : lowerRanges.all LowerRange.ok = true := by
  decide +kernel

lemma lowerRanges_clear : lowerRanges.all (fun r => lowerRanges.all r.clear) = true := by
  decide +kernel

lemma lowerNat_eq (n : ℕ) :
    lowerNat n = n ∧ (∀ r ∈ lowerRanges, r.covers n = false) ∨
      ∃ r ∈ lowerRanges, r.covers n = true ∧ lowerNat n = r.target + (n - r.lo) := by
  rw [lowerNat]
  cases hfind : lowerRanges.find? (·.covers n) with
  | none =>
      left
      refine ⟨rfl, fun r hr => ?_⟩
      simpa using find?_eq_none.1 hfind r hr
  | some r =>
      exact Or.inr ⟨r, mem_of_find?_eq_some hfind, by simpa using find?_some hfind, rfl⟩

variable {n : ℕ} {r : LowerRange} {c : Char} {seps : List Bytes} {bs : Bytes}

lemma LowerRange.covers_iff :
    r.covers n = true ↔ r.lo ≤ n ∧ n ≤ r.hi ∧ (n - r.lo) % r.stride = 0 := by
  simp [covers, and_assoc]

/-- A target is not in any range again. -/
lemma covers_target {q : LowerRange} (hr : r ∈ lowerRanges) (hq : q ∈ lowerRanges)
    (hn : r.covers n = true) : q.covers (r.target + (n - r.lo)) = false := by
  have hclear := all_eq_true.1 (all_eq_true.1 lowerRanges_clear r hr) q hq
  simp only [LowerRange.clear, Bool.or_eq_true, decide_eq_true_eq] at hclear
  rw [LowerRange.last] at hclear
  rw [LowerRange.covers_iff] at hn
  rw [← Bool.not_eq_true, LowerRange.covers_iff]
  rintro ⟨hlo, hhi, hstep⟩
  rcases hclear with (hlast | hbelow) | ⟨hq2, hr2, hodd⟩
  · omega
  · omega
  · rw [hq2] at hstep
    rcases hr2 with hr2 | hr2
    · rw [hr2] at hn
      omega
    · omega

lemma char_toNat_ofNat (h : n.isValidChar) : (Char.ofNat n).toNat = n := by
  rw [Char.ofNat, dif_pos h]
  rfl

lemma isValidChar_target (hr : r ∈ lowerRanges) (hn : r.covers n = true) :
    (r.target + (n - r.lo)).isValidChar := by
  have hok := all_eq_true.1 lowerRanges_ok r hr
  simp only [LowerRange.ok, Bool.and_eq_true, Bool.or_eq_true, decide_eq_true_eq] at hok
  rw [LowerRange.last] at hok
  rw [LowerRange.covers_iff] at hn
  rcases hok.1 with hlast | ⟨hlo, hlast⟩
  · exact Or.inl (by omega)
  · exact Or.inr ⟨by omega, by omega⟩

/-- What a character beyond ASCII becomes: itself, another such character, `i` or `k`. -/
lemma lowerChar_high (h : 128 ≤ c.toNat) :
    lowerChar c = c ∧ lowerNat c.toNat = c.toNat ∨
      ∃ r ∈ lowerRanges, r.covers c.toNat = true ∧
        (lowerChar c).toNat = r.target + (c.toNat - r.lo) := by
  rw [lowerChar, if_neg (by omega)]
  rcases lowerNat_eq c.toNat with ⟨hsame, -⟩ | ⟨r, hr, hcovers, htarget⟩
  · left
    rw [hsame, Char.ofNat_toNat]
    exact ⟨rfl, rfl⟩
  · right
    refine ⟨r, hr, hcovers, ?_⟩
    rw [htarget, char_toNat_ofNat (isValidChar_target hr hcovers)]

lemma lowerChar_ascii (h : c.toNat < 128) :
    (lowerChar c).toNat = if 65 ≤ c.toNat ∧ c.toNat ≤ 90 then c.toNat + 32 else c.toNat := by
  rw [lowerChar, if_pos h]
  split_ifs with hupper
  · exact char_toNat_ofNat (Or.inl (by omega))
  · rfl

/-- Lower case of a character beyond ASCII is beyond ASCII, but for `i` and `k`. -/
lemma toNat_lowerChar_high (h : 128 ≤ c.toNat) :
    128 ≤ (lowerChar c).toNat ∨ (lowerChar c).toNat = 105 ∨ (lowerChar c).toNat = 107 := by
  rcases lowerChar_high h with ⟨hsame, -⟩ | ⟨r, hr, hcovers, htarget⟩
  · rw [hsame]
    exact Or.inl h
  · have hok := all_eq_true.1 lowerRanges_ok r hr
    simp only [LowerRange.ok, Bool.and_eq_true, Bool.or_eq_true, decide_eq_true_eq] at hok
    rw [LowerRange.covers_iff] at hcovers
    rw [htarget]
    rcases hok.2 with hhigh | ⟨hsingle, hlow⟩ <;> omega

lemma toNat_lowerChar_lt (h : c.toNat < 128) : (lowerChar c).toNat < 128 := by
  rw [lowerChar_ascii h]
  split_ifs <;> omega

/-- A sign: an ASCII character that is not a letter. -/
def IsSign (d : Char) : Prop :=
  d.toNat < 65 ∨ (91 ≤ d.toNat ∧ d.toNat < 97) ∨ (123 ≤ d.toNat ∧ d.toNat < 128)

instance : DecidablePred IsSign := fun d => by
  unfold IsSign
  infer_instance

lemma lowerChar_eq_sign {d : Char} (hd : IsSign d) : lowerChar c = d ↔ c = d := by
  constructor
  · rintro rfl
    by_cases hc : c.toNat < 128
    · have hlow := lowerChar_ascii hc
      unfold IsSign at hd
      rw [hlow] at hd
      refine Char.toNat_inj.1 ?_
      rw [hlow]
      split_ifs at hd ⊢ <;> omega
    · have hhigh := toNat_lowerChar_high (not_lt.1 hc)
      unfold IsSign at hd
      omega
  · rintro rfl
    unfold IsSign at hd
    refine Char.toNat_inj.1 ?_
    rw [lowerChar_ascii (by omega), if_neg (by omega)]

lemma lowerChar_lowerChar (c : Char) : lowerChar (lowerChar c) = lowerChar c := by
  have hascii : ∀ d : Char, d.toNat < 128 → ¬(65 ≤ d.toNat ∧ d.toNat ≤ 90) → lowerChar d = d := by
    intro d hd hlow
    refine Char.toNat_inj.1 ?_
    rw [lowerChar_ascii hd, if_neg hlow]
  by_cases hc : c.toNat < 128
  · have hlow := lowerChar_ascii hc
    refine hascii _ (toNat_lowerChar_lt hc) ?_
    rw [hlow]
    split_ifs <;> omega
  · rcases lowerChar_high (not_lt.1 hc) with ⟨hsame, -⟩ | ⟨r, hr, hcovers, htarget⟩
    · rw [hsame, hsame]
    · by_cases hsmall : (lowerChar c).toNat < 128
      · have hik := toNat_lowerChar_high (not_lt.1 hc)
        exact hascii _ hsmall (by omega)
      · rcases lowerChar_high (not_lt.1 hsmall) with ⟨hsame, -⟩ | ⟨q, hq, hcov, -⟩
        · exact hsame
        · rw [htarget, covers_target hr hq hcovers] at hcov
          exact absurd hcov Bool.false_ne_true

@[simp]
lemma toList_toLower (s : String) : (toLower s).toList = s.toList.map lowerChar := by
  simp [toLower]

/-- Lower case is lower case already. -/
theorem toLower_toLower (s : String) : toLower (toLower s) = toLower s := by
  refine String.toList_inj.1 ?_
  simp [lowerChar_lowerChar, Function.comp_def]

/-! ## White space -/

/-- The characters of `unicode.IsSpace`. -/
def spaces : List Char :=
  ['\t', '\n', '\x0b', '\x0c', '\r', ' ', '\u0085', '\u00a0', '\u1680', '\u2000', '\u2001',
    '\u2002', '\u2003', '\u2004', '\u2005', '\u2006', '\u2007', '\u2008', '\u2009', '\u200a',
    '\u2028', '\u2029', '\u202f', '\u205f', '\u3000']

def isSpace (c : Char) : Bool :=
  c ∈ spaces

/-- `strings.TrimSpace` of a string. -/
def trimSpace (s : String) : String :=
  String.ofList ((s.toList.dropWhile isSpace).reverse.dropWhile isSpace).reverse

/-- Drops texts of `seps` in front, in at most `n` rounds. -/
def dropSeps (seps : List Bytes) : ℕ → Bytes → Bytes
  | 0, bs => bs
  | n + 1, bs =>
    match seps.find? (·.isPrefixOf bs) with
    | some p => dropSeps seps n (bs.drop p.length)
    | none => bs

def spaceTexts : List Bytes :=
  spaces.map String.utf8EncodeChar

/-- `strings.TrimSpace` of a text that need not be UTF-8: bytes that are no character are kept. -/
def trimSpaceBytes (bs : Bytes) : Bytes :=
  let front := dropSeps spaceTexts bs.length bs
  (dropSeps (spaceTexts.map List.reverse) front.length front.reverse).reverse

lemma dropSeps_cons {b : UInt8} (bs : Bytes) (n : ℕ) (hb : ∀ p ∈ seps, ∃ c q, p = c :: q ∧ c ≠ b) :
    dropSeps seps n (b :: bs) = b :: bs := by
  cases n with
  | zero => rfl
  | succ n =>
      have hnone : seps.find? (·.isPrefixOf (b :: bs)) = none := by
        refine find?_eq_none.2 fun p hp => ?_
        obtain ⟨c, q, rfl, hne⟩ := hb p hp
        simp [hne]
      rw [dropSeps, hnone]

/-- The byte is neither the first nor the last one of a space. -/
def edge (b : UInt8) : Bool :=
  spaceTexts.all fun p => p.head? != some b && p.getLast? != some b && !p.isEmpty

lemma exists_cons_of_edge {b : UInt8} (hb : edge b = true) :
    (∀ p ∈ spaceTexts, ∃ c q, p = c :: q ∧ c ≠ b) ∧
      ∀ p ∈ spaceTexts.map List.reverse, ∃ c q, p = c :: q ∧ c ≠ b := by
  have hall : ∀ p ∈ spaceTexts, p.head? ≠ some b ∧ p.getLast? ≠ some b ∧ p ≠ [] := by
    simpa [edge, and_assoc] using hb
  constructor
  · intro p hp
    obtain ⟨hhead, -, hne⟩ := hall p hp
    obtain ⟨c, q, rfl⟩ := exists_cons_of_ne_nil hne
    exact ⟨c, q, rfl, by simpa using hhead⟩
  · intro p hp
    obtain ⟨r, hr, rfl⟩ := mem_map.1 hp
    obtain ⟨-, hlast, hne⟩ := hall r hr
    obtain ⟨c, q, hcq⟩ := exists_cons_of_ne_nil (mt reverse_eq_nil_iff.1 hne)
    refine ⟨c, q, hcq, ?_⟩
    rw [← head?_reverse, hcq] at hlast
    simpa using hlast

/-- A text is not trimmed if its first and last byte are none of a space. -/
theorem trimSpaceBytes_of_ends {a b : UInt8} (ha : edge a = true) (hb : edge b = true)
    (bs : Bytes) : trimSpaceBytes (a :: (bs ++ [b])) = a :: (bs ++ [b]) := by
  have hfront := dropSeps_cons (bs ++ [b]) (a :: (bs ++ [b])).length (exists_cons_of_edge ha).1
  have hrev : (a :: (bs ++ [b])).reverse = b :: (bs.reverse ++ [a]) := by simp
  simp only [trimSpaceBytes, hfront, hrev, dropSeps_cons _ _ (exists_cons_of_edge hb).2]
  simp

lemma dropSeps_of_notPrefix (h : ∀ p ∈ seps, ¬ p <+: bs) (n : ℕ) : dropSeps seps n bs = bs := by
  cases n with
  | zero => rfl
  | succ n =>
      have hnone : seps.find? (·.isPrefixOf bs) = none := by
        refine find?_eq_none.2 fun p hp => ?_
        simpa using h p hp
      rw [dropSeps, hnone]

/-- What is left starts with no text of `seps`. -/
lemma dropSeps_spec (hseps : ∀ p ∈ seps, p ≠ []) (hn : bs.length ≤ n) :
    dropSeps seps n bs <:+ bs ∧ ∀ p ∈ seps, ¬ p <+: dropSeps seps n bs := by
  induction n generalizing bs with
  | zero =>
      obtain rfl : bs = [] := length_eq_zero_iff.1 (by omega)
      exact ⟨suffix_rfl, fun p hp hpre => hseps p hp (prefix_nil.1 hpre)⟩
  | succ n ih =>
      cases hfind : seps.find? (·.isPrefixOf bs) with
      | none =>
          have hnone := find?_eq_none.1 hfind
          simp only [dropSeps, hfind]
          exact ⟨suffix_rfl, fun p hp hpre => hnone p hp (by simpa using hpre)⟩
      | some p =>
          have hp := mem_of_find?_eq_some hfind
          have hpos := length_pos_of_ne_nil (hseps p hp)
          have hlen : (bs.drop p.length).length ≤ n := by
            rw [length_drop]
            omega
          obtain ⟨hsuffix, hrest⟩ := ih hlen
          simp only [dropSeps, hfind]
          exact ⟨hsuffix.trans (drop_suffix _ _), hrest⟩

/-- No space stands in front or behind. -/
def Trimmed (bs : Bytes) : Prop :=
  ∀ p ∈ spaceTexts, ¬ p <+: bs ∧ ¬ p <:+ bs

lemma trimSpaceBytes_of_trimmed (h : Trimmed bs) : trimSpaceBytes bs = bs := by
  have hfront : dropSeps spaceTexts bs.length bs = bs :=
    dropSeps_of_notPrefix (fun p hp => (h p hp).1) _
  have hback : dropSeps (spaceTexts.map List.reverse) bs.length bs.reverse = bs.reverse := by
    refine dropSeps_of_notPrefix (fun p hp => ?_) _
    obtain ⟨q, hq, rfl⟩ := mem_map.1 hp
    rw [List.reverse_prefix]
    exact (h q hq).2
  simp only [trimSpaceBytes, hfront, hback, reverse_reverse]

/-- The rest of a text without its spaces. -/
lemma trimSpaceBytes_spec (bs : Bytes) : Trimmed (trimSpaceBytes bs) ∧ trimSpaceBytes bs ⊆ bs := by
  have hne : ∀ p ∈ spaceTexts, p ≠ [] := by decide
  have hne' : ∀ p ∈ spaceTexts.map List.reverse, p ≠ [] := by decide
  have hlen : (dropSeps spaceTexts bs.length bs).reverse.length ≤
      (dropSeps spaceTexts bs.length bs).length := by simp
  obtain ⟨hsuffix, hfront⟩ := dropSeps_spec hne (le_refl bs.length)
  obtain ⟨hsuffix', hback⟩ := dropSeps_spec hne' hlen
  refine ⟨fun p hp => ⟨fun hpre => ?_, fun hsuf => ?_⟩, fun b hb => ?_⟩
  · refine hfront p hp (hpre.trans ?_)
    rw [trimSpaceBytes, ← reverse_suffix, reverse_reverse]
    exact hsuffix'
  · refine hback p.reverse (mem_map_of_mem hp) ?_
    rw [trimSpaceBytes, ← List.reverse_prefix, reverse_reverse] at hsuf
    exact hsuf
  · exact hsuffix.subset (mem_reverse.1 (hsuffix'.subset (mem_reverse.1 hb)))

/-! ## Parts of strings -/

/-- `strings.HasPrefix`. -/
def startsWith (s p : String) : Bool :=
  p.toList.isPrefixOf s.toList

/-- `strings.Contains`. -/
def contains (s part : String) : Bool :=
  part.toList <:+: s.toList

/-- `strings.ContainsAny` of the characters `cs`. -/
def containsAny (s : String) (cs : List Char) : Bool :=
  s.toList.any (· ∈ cs)

/-- `strings.SplitN` at the character `sep`, into `n + 1` parts at most. -/
def splitN (sep : Char) : ℕ → List Char → List (List Char)
  | 0, s => [s]
  | n + 1, s =>
    if sep ∈ s then
      s.takeWhile (· != sep) :: splitN sep n ((s.dropWhile (· != sep)).drop 1)
    else [s]

/-- The part number `i` of `strings.SplitN`. -/
def splitPart (sep : Char) (n i : ℕ) (s : String) : Option String :=
  (splitN sep n s.toList)[i]?.map String.ofList

/-- A letter without its case.  It is enough for `strings.EqualFold` with an ASCII string: beyond
ASCII only the long s and the Kelvin sign fold to ASCII letters. -/
def foldChar (c : Char) : Char :=
  if c = '\u017f' then 's'
  else if c = '\u212a' then 'k'
  else if c.toNat < 128 then lowerChar c
  else c

/-- `strings.EqualFold` of a string and an ASCII string. -/
def equalFoldASCII (s t : String) : Bool :=
  s.toList.map foldChar == t.toList.map foldChar

/-! ## Patterns of identifiers -/

def isDigitChar (c : Char) : Bool :=
  '0' ≤ c && c ≤ '9'

def isLowerAlnum (c : Char) : Bool :=
  ('a' ≤ c && c ≤ 'z') || isDigitChar c

/-- `reService`. -/
def reService (s : String) : Bool :=
  !s.toList.isEmpty && s.toList.all fun c => isLowerAlnum c || c == '-'

/-- `reAccount`. -/
def reAccount (s : String) : Bool :=
  s.toList.length == 12 && s.toList.all isDigitChar

end AuthSec
