import AuthSec.Lib.Except
import AuthSec.Terraform.Blocks

/-!
# Byte ranges of a Terraform file

The blocks of a file stand one behind the other, with nothing but blanks and comments between.  Inside
a block an attribute is edited as whole lines, from the start of the line that holds its name.  So the
ranges of a block are apart exactly if no item starts on the line where the brace or the nested block
before it ends.
-/

namespace AuthSec

open List

namespace TfScanner

open LitParser

/-! ## What is left -/

lemma afterComment_suffix (bs : Bytes) : afterComment bs <:+ bs := by
  induction bs with
  | nil => exact suffix_refl _
  | cons b bs ih =>
      rw [afterComment]
      split_ifs
      · exact (tail_suffix bs).trans (suffix_cons b bs)
      · exact ih.trans (suffix_cons b bs)

lemma skipSpace_suffix (nl : Bool) (n : ℕ) (bs : Bytes) : skipSpace nl n bs <:+ bs := by
  induction n generalizing bs with
  | zero => exact suffix_refl _
  | succ n ih =>
      cases bs with
      | nil => exact suffix_refl _
      | cons c bs =>
          rw [skipSpace]
          have hcons := suffix_cons c bs
          split_ifs
          · exact (ih bs).trans hcons
          · exact (ih bs).trans hcons
          · exact suffix_refl _
          · exact ((ih _).trans (dropWhile_suffix _)).trans hcons
          · exact (((ih _).trans (afterComment_suffix _)).trans (tail_suffix bs)).trans hcons
          · exact suffix_refl _

lemma space_suffix (nl : Bool) (bs : Bytes) : space nl bs <:+ bs :=
  skipSpace_suffix nl bs.length bs

lemma ident_append (bs : Bytes) : (ident bs).1 ++ (ident bs).2 = bs := by
  rw [ident]
  split_ifs
  · exact takeWhile_append_dropWhile
  · rfl

lemma ident_suffix (bs : Bytes) : (ident bs).2 <:+ bs :=
  ⟨_, ident_append bs⟩

lemma str_suffix_and (n : ℕ) :
    (∀ bs rest, str n bs = .ok rest → rest <:+ bs) ∧
      ∀ depth bs rest, templateExpr n depth bs = .ok rest → rest <:+ bs := by
  induction n with
  | zero =>
      constructor
      · intro bs rest h
        cases h
      · intro depth bs rest h
        cases h
  | succ n ih =>
      obtain ⟨ihstr, ihtemplate⟩ := ih
      constructor
      · intro bs rest h
        cases bs with
        | nil => cases h
        | cons c bs =>
            have hcons := suffix_cons c bs
            rw [str] at h
            split_ifs at h
            · exact ((ihstr _ _ h).trans (drop_suffix 1 bs)).trans hcons
            · obtain rfl := Except.ok.inj h
              exact hcons
            · exact ((ihstr _ _ h).trans (drop_suffix 2 bs)).trans hcons
            · obtain ⟨left, hleft, hstr⟩ := bind_eq_ok.1 h
              exact (((ihstr _ _ hstr).trans (ihtemplate _ _ _ hleft)).trans
                (drop_suffix 1 bs)).trans hcons
            · exact (ihstr _ _ h).trans hcons
      · intro depth bs rest h
        cases bs with
        | nil => cases h
        | cons c bs =>
            have hcons := suffix_cons c bs
            rw [templateExpr] at h
            split_ifs at h
            · obtain ⟨left, hleft, hrest⟩ := bind_eq_ok.1 h
              exact ((ihtemplate _ _ _ hrest).trans (ihstr _ _ hleft)).trans hcons
            · exact (ihtemplate _ _ _ h).trans hcons
            · exact (ihtemplate _ _ _ h).trans hcons
            · obtain rfl := Except.ok.inj h
              exact hcons
            · exact (ihtemplate _ _ _ h).trans hcons
            · exact (ihtemplate _ _ _ h).trans hcons

variable {n : ℕ} {rest type : Bytes}

lemma heredocLines_suffix {mark : Bytes} {bs : Bytes} (h : heredocLines mark n bs = .ok rest) :
    rest <:+ bs := by
  induction n generalizing bs with
  | zero => cases h
  | succ n ih =>
      rw [heredocLines] at h
      split_ifs at h
      · obtain rfl := Except.ok.inj h
        exact drop_suffix _ bs
      · exact ((ih h).trans (tail_suffix _)).trans (dropWhile_suffix _)

lemma heredoc_suffix {bs : Bytes} (h : heredoc bs = .ok rest) : rest <:+ bs := by
  have hfront : trimFront [ascii '-'] bs <:+ bs := by
    rw [trimFront]
    split_ifs
    · exact drop_suffix _ bs
    · exact suffix_refl bs
  simp only [heredoc] at h
  split_ifs at h
  have hlines := heredocLines_suffix h
  exact (((hlines.trans (tail_suffix _)).trans (dropWhile_suffix _)).trans
    (ident_suffix _)).trans hfront

/-- The text is empty, or starts with something that ends an expression. -/
def ExprEnd (rest : Bytes) : Prop :=
  ∀ c ∈ rest.head?, c = ascii '\n' ∨ (c = ascii '#' ∨ [ascii '/', ascii '/'] <+: rest) ∨
    c = ascii ')' ∨ c = ascii ']' ∨ c = ascii '}'

lemma exprEnd_cons {c : UInt8} {bs : Bytes} :
    ExprEnd (c :: bs) ↔ c = ascii '\n' ∨ (c = ascii '#' ∨ [ascii '/', ascii '/'] <+: c :: bs) ∨
      c = ascii ')' ∨ c = ascii ']' ∨ c = ascii '}' := by
  simp [ExprEnd]

lemma expr_spec {depth : ℕ} {bs : Bytes} (h : expr n depth bs = .ok rest) :
    rest <:+ bs ∧ ExprEnd rest := by
  induction n generalizing depth bs with
  | zero =>
      cases bs with
      | nil =>
          rw [expr] at h
          split_ifs at h
          obtain rfl := Except.ok.inj h
          exact ⟨suffix_refl _, by simp [ExprEnd]⟩
      | cons c bs => cases h
  | succ n ih =>
      cases bs with
      | nil =>
          rw [expr] at h
          split_ifs at h
          obtain rfl := Except.ok.inj h
          exact ⟨suffix_refl _, by simp [ExprEnd]⟩
      | cons c bs =>
          have hcons := suffix_cons c bs
          have hstop (hc : ExprEnd (c :: bs)) (h : (.ok (c :: bs) : Except TfFail Bytes) = .ok rest) :
              rest <:+ c :: bs ∧ ExprEnd rest := by
            obtain rfl : c :: bs = rest := Except.ok.inj h
            exact ⟨suffix_refl _, hc⟩
          have hgo {depth : ℕ} {left : Bytes} (hleft : left <:+ bs)
              (h : expr n depth left = .ok rest) : rest <:+ c :: bs ∧ ExprEnd rest :=
            ⟨((ih h).1.trans hleft).trans hcons, (ih h).2⟩
          rw [expr] at h
          split_ifs at h with hquote hheredoc hline hdepth hcomment hend hopen hclose hdepth' hnewline
            hdepth''
          · obtain ⟨left, hstr, hexpr⟩ := bind_eq_ok.1 h
            exact hgo ((str_suffix_and _).1 _ _ (mapError_eq_ok.1 hstr)) hexpr
          · obtain ⟨left, hleft, hexpr⟩ := bind_eq_ok.1 h
            exact hgo ((heredoc_suffix hleft).trans (tail_suffix bs)) hexpr
          · exact hstop (exprEnd_cons.2 (Or.inr (Or.inl hline))) h
          · exact hgo (dropWhile_suffix _) h
          · exact hgo ((afterComment_suffix _).trans (tail_suffix bs)) h
          · exact hgo (suffix_refl bs) h
          · exact hstop (exprEnd_cons.2 (Or.inr (Or.inr hclose))) h
          · exact hgo (suffix_refl bs) h
          · exact hstop (exprEnd_cons.2 (Or.inl hnewline)) h
          · exact hgo (suffix_refl bs) h
          · exact hgo (suffix_refl bs) h

lemma labels_spec {bs left : Bytes} {ls : List Bytes} (h : labels type n bs = .ok (ls, left)) :
    left <:+ bs ∧ left.head? = some (ascii '{') := by
  induction n generalizing bs ls with
  | zero => cases h
  | succ n ih =>
      have hspace := space_suffix false bs
      rw [labels] at h
      cases hrest : space false bs with
      | nil =>
          rw [hrest] at h
          cases h
      | cons c rest =>
          rw [hrest] at h hspace
          simp only at h
          split_ifs at h with hquote hident hbrace
          · obtain ⟨after, hstr, h₁⟩ := bind_eq_ok.1 h
            have hafter := (str_suffix_and _).1 _ _ (mapError_eq_ok.1 hstr)
            cases hlabel : unquote ((c :: rest).take ((c :: rest).length - after.length)) with
            | none =>
                rw [hlabel] at h₁
                cases h₁
            | some l =>
                rw [hlabel] at h₁
                obtain ⟨⟨ls', left'⟩, hlabels, h₂⟩ := bind_eq_ok.1 h₁
                obtain ⟨rfl, rfl⟩ := ok_pair_inj h₂
                obtain ⟨hsuffix, hhead⟩ := ih hlabels
                exact ⟨((hsuffix.trans hafter).trans (suffix_cons c rest)).trans hspace, hhead⟩
          · obtain ⟨⟨ls', left'⟩, hlabels, h₁⟩ := bind_eq_ok.1 h
            obtain ⟨rfl, rfl⟩ := ok_pair_inj h₁
            obtain ⟨hsuffix, hhead⟩ := ih hlabels
            exact ⟨(hsuffix.trans (ident_suffix _)).trans hspace, hhead⟩
          · obtain ⟨rfl, rfl⟩ := ok_pair_inj h
            exact ⟨hspace, by rw [hbrace]; rfl⟩

/-! ## Lines -/

section

variable {f g : Bytes}

lemma lineStart_le (f : Bytes) : lineStart f ≤ f.length :=
  Nat.sub_le ..

/-- Text without a newline stays on the line. -/
lemma lineStart_append (hg : ascii '\n' ∉ g) : lineStart (f ++ g) = lineStart f := by
  have hall : ∀ b ∈ g.reverse, (b != ascii '\n') = true := by
    intro b hb
    rw [bne_iff_ne]
    rintro rfl
    exact hg (mem_reverse.1 hb)
  simp only [lineStart, reverse_append, takeWhile_append_of_pos hall, length_append, length_reverse]
  omega

lemma lineStart_newline (f : Bytes) : lineStart (f ++ [ascii '\n']) = f.length + 1 := by
  simp [lineStart]

/-- Behind a newline in the text the line starts behind the last one. -/
lemma exists_lineStart (f : Bytes) (hg : ascii '\n' ∈ g) :
    ∃ a b, g = a ++ ascii '\n' :: b ∧ ascii '\n' ∉ b ∧
      lineStart (f ++ g) = (f ++ a).length + 1 := by
  obtain ⟨b, a, hsplit, hb⟩ := eq_append_cons_of_mem (mem_reverse.2 hg)
  have hg' : g = a.reverse ++ ascii '\n' :: b.reverse := by
    rw [← reverse_reverse g, hsplit]
    simp
  have hb' : ascii '\n' ∉ b.reverse := fun hmem => hb (mem_reverse.1 hmem)
  refine ⟨a.reverse, b.reverse, hg', hb', ?_⟩
  have hline : f ++ g = f ++ a.reverse ++ [ascii '\n'] ++ b.reverse := by
    rw [hg']
    simp
  rw [hline, lineStart_append hb', lineStart_newline]

lemma lineStart_mono (f g : Bytes) : lineStart f ≤ lineStart (f ++ g) := by
  by_cases hg : ascii '\n' ∈ g
  · obtain ⟨a, b, -, -, hline⟩ := exists_lineStart f hg
    have hle := lineStart_le f
    rw [hline, length_append]
    omega
  · exact (lineStart_append hg).ge

/-- Whether the line starts behind `f` is whether `g` has a newline. -/
lemma length_le_lineStart_iff {c : UInt8} (hc : c ≠ ascii '\n') :
    (f ++ [c]).length ≤ lineStart (f ++ [c] ++ g) ↔ ascii '\n' ∈ g := by
  constructor
  · intro hle
    by_contra hg
    have hone : ascii '\n' ∉ [c] := fun hmem => hc (mem_singleton.1 hmem).symm
    rw [lineStart_append hg, lineStart_append hone] at hle
    have hline := lineStart_le f
    rw [length_append, length_singleton] at hle
    omega
  · intro hg
    obtain ⟨a, b, -, -, hline⟩ := exists_lineStart (f ++ [c]) hg
    rw [hline]
    simp only [length_append]
    omega

end

/-! ## Places -/

section

variable {path : String} {src f bs : Bytes}

lemma pos_append (f bs : Bytes) : pos (f ++ bs) bs = f.length := by
  simp [pos]

lemma take_pos (f bs : Bytes) : (f ++ bs).take (pos (f ++ bs) bs) = f := by
  rw [pos_append, take_left]

/-- What stands in front of a place, behind another one. -/
lemma take_length_sub (g bs : Bytes) : (g ++ bs).take ((g ++ bs).length - bs.length) = g := by
  simp

/-- The end of a block: behind the blanks and the newline that follow its brace, or behind the brace. -/
lemma blockEnd_cases (f rest : Bytes) : ∃ k rest', rest = k ++ rest' ∧
    blockEnd (f ++ rest) rest = (f ++ k).length ∧
    (k = [] ∨ ∃ g, k = g ++ [ascii '\n'] ∧ ∀ b ∈ g, isBlank b = true) := by
  obtain ⟨g, hg⟩ : ∃ g, rest.takeWhile isBlank = g := ⟨_, rfl⟩
  obtain ⟨line, hline⟩ : ∃ line, rest.dropWhile isBlank = line := ⟨_, rfl⟩
  have hblank : ∀ b ∈ g, isBlank b = true := fun b hb => mem_takeWhile_imp (hg ▸ hb)
  have hsplit : g ++ line = rest := by
    rw [← hg, ← hline]
    exact takeWhile_append_dropWhile
  simp only [blockEnd, hline]
  split_ifs with hnewline
  · obtain ⟨left, rfl⟩ := head?_eq_some_iff.1 hnewline
    have hrest : rest = g ++ [ascii '\n'] ++ left := by
      rw [← hsplit]
      simp
    refine ⟨g ++ [ascii '\n'], left, hrest, ?_, Or.inr ⟨g, rfl, hblank⟩⟩
    rw [tail_cons, hrest, ← append_assoc, pos_append]
  · refine ⟨[], rest, rfl, ?_, Or.inl rfl⟩
    rw [pos_append, append_nil]

/-- The end of a block is behind its brace, and not behind the next newline. -/
lemma blockEnd_spec (f rest : Bytes) : f.length ≤ blockEnd (f ++ rest) rest ∧
    ∀ a b, rest = a ++ ascii '\n' :: b → blockEnd (f ++ rest) rest ≤ (f ++ a).length + 1 := by
  obtain ⟨k, rest', hrest, hend, hk⟩ := blockEnd_cases f rest
  rw [hend]
  refine ⟨by simp, fun a b hab => ?_⟩
  rcases hk with rfl | ⟨g, rfl, hblank⟩
  · simp only [length_append, length_nil]
    omega
  · rw [hrest, append_assoc] at hab
    have hle : g.length ≤ a.length := by
      rcases append_eq_append_iff.1 hab with ⟨c, rfl, -⟩ | ⟨c, rfl, hc⟩
      · simp
      · cases c with
        | nil => simp
        | cons d c =>
            obtain ⟨rfl, -⟩ := List.cons.inj hc
            exact absurd (hblank (ascii '\n') (by simp)) (by decide)
    simp only [length_append, length_singleton]
    omega

/-- The text is empty, or starts with a closing bracket. -/
def AtClose (bs : Bytes) : Prop :=
  ∀ c ∈ bs.head?, c = ascii ')' ∨ c = ascii ']' ∨ c = ascii '}'

/-- A closing bracket is neither blank nor the start of a comment. -/
lemma space_atClose {nl : Bool} (h : AtClose bs) : space nl bs = bs := by
  cases bs with
  | nil => rfl
  | cons c bs =>
      have hplain : isBlank c = false ∧ c ≠ ascii '\n' ∧ c ≠ ascii '#' ∧ ascii '/' ≠ c := by
        rcases h c rfl with rfl | rfl | rfl <;> decide
      obtain ⟨hblank, hnewline, hhash, hslash⟩ := hplain
      rw [space, length_cons, skipSpace, if_neg (by simp [hblank]), if_neg hnewline,
        if_neg (by simp [cons_prefix_cons, hhash, hslash]),
        if_neg (by simp [cons_prefix_cons, hslash])]

/-- Behind an expression there is a newline, nothing, or a closing bracket. -/
lemma space_exprEnd (h : ExprEnd rest) :
    (space false rest).head? = some (ascii '\n') ∨ AtClose (space false rest) := by
  have hstop (n : ℕ) (bs : Bytes) (hbs : bs = [] ∨ bs.head? = some (ascii '\n')) :
      skipSpace false n bs = bs := by
    cases n with
    | zero => rfl
    | succ n =>
        rcases hbs with rfl | hbs
        · rfl
        · obtain ⟨bs, rfl⟩ := head?_eq_some_iff.1 hbs
          rw [skipSpace, if_neg (by decide), if_pos rfl]
          rfl
  cases rest with
  | nil => exact Or.inr nofun
  | cons c bs =>
      rcases exprEnd_cons.1 h with rfl | hline | hclose
      · rw [space, hstop _ _ (Or.inr rfl)]
        exact Or.inl rfl
      · have hc : c = ascii '#' ∨ c = ascii '/' :=
          hline.imp id fun hpre => (cons_prefix_cons.1 hpre).1.symm
        have hblank : isBlank c = false ∧ c ≠ ascii '\n' := by rcases hc with rfl | rfl <;> decide
        have hleft : bs.dropWhile (· != ascii '\n') = [] ∨
            (bs.dropWhile (· != ascii '\n')).head? = some (ascii '\n') := by
          have hhead := head?_dropWhile_not (· != ascii '\n') bs
          cases hbs : bs.dropWhile (· != ascii '\n') with
          | nil => exact Or.inl rfl
          | cons d left =>
              rw [hbs] at hhead
              exact Or.inr (by simpa using hhead)
        rw [space, length_cons, skipSpace, if_neg (by simp [hblank.1]), if_neg hblank.2,
          if_pos hline, hstop _ _ hleft]
        rcases hleft with hnil | hnewline
        · rw [hnil]
          exact Or.inr nofun
        · exact Or.inl hnewline
      · have hend : AtClose (c :: bs) := fun d hd => (Option.some.inj hd) ▸ hclose
        rw [space_atClose hend]
        exact Or.inr hend

/-! ## Items of a block -/

lemma exists_append {bs : Bytes} (h : rest <:+ bs) : ∃ g, bs = g ++ rest := by
  obtain ⟨g, hg⟩ := h
  exact ⟨g, hg.symm⟩

variable {next final here : Bytes} {a : TfAttr} {b : Body} {nb : TfBlock}

/-- An attribute ends behind a newline, or in front of a closing bracket. -/
lemma attr_spec {name : Bytes} {start : ℕ} (h : attr (f ++ bs) name start bs = .ok (a, next)) :
    ∃ t, bs = t ++ next ∧ a.lineStart = start ∧ f.length ≤ a.lineEnd ∧ a.lineEnd ≤ (f ++ t).length ∧
      ((∃ u, t = u ++ [ascii '\n'] ∧ a.lineEnd = (f ++ t).length) ∨ AtClose next) := by
  obtain ⟨rest, hexpr, h₁⟩ := bind_eq_ok.1 h
  obtain ⟨hrest, hend⟩ := expr_spec (mapError_eq_ok.1 hexpr)
  obtain ⟨g, hbs⟩ := exists_append (hrest.trans (space_suffix false bs))
  obtain ⟨e, hleft⟩ := exists_append (space_suffix false rest)
  obtain ⟨ha, hnext⟩ := ok_pair_inj h₁
  have hstart : a.lineStart = start := ha ▸ rfl
  have hlineEnd : a.lineEnd = if (space false rest).head? = some (ascii '\n') then
      pos (f ++ bs) (space false rest).tail else pos (f ++ bs) rest := ha ▸ rfl
  by_cases hnewline : (space false rest).head? = some (ascii '\n')
  · rw [if_pos hnewline] at hlineEnd hnext
    obtain ⟨left, hnl⟩ := head?_eq_some_iff.1 hnewline
    rw [hnl, tail_cons] at hnext hlineEnd
    subst hnext
    rw [hnl] at hleft
    have hbs' : bs = g ++ e ++ [ascii '\n'] ++ left := by
      rw [hbs, hleft]
      simp
    have hend : a.lineEnd = (f ++ (g ++ e ++ [ascii '\n'])).length := by
      rw [hlineEnd, hbs', ← append_assoc, pos_append]
    refine ⟨g ++ e ++ [ascii '\n'], hbs', hstart, ?_, hend.le, Or.inl ⟨g ++ e, rfl, hend⟩⟩
    rw [hend]
    simp
  · rw [if_neg hnewline] at hlineEnd hnext
    subst hnext
    have hend' : a.lineEnd = (f ++ g).length := by
      rw [hlineEnd, hbs, ← append_assoc, pos_append]
    refine ⟨g ++ e, ?_, hstart, ?_, ?_, Or.inr ((space_exprEnd hend).resolve_left hnewline)⟩
    · rw [append_assoc, ← hleft]
      exact hbs
    · rw [hend']
      simp
    · rw [hend']
      simp

/-- The name of an item is followed by a single equals sign. -/
def IsAttr (here : Bytes) : Prop :=
  [ascii '='] <+: space false (ident here).2 ∧ ¬ [ascii '=', ascii '='] <+: space false (ident here).2

instance (here : Bytes) : Decidable (IsAttr here) :=
  inferInstanceAs (Decidable (_ ∧ _))

/-- What a body can start with. -/
lemma body_cases (h : body path src type (n + 1) bs = .ok (b, final)) :
    (space true bs = ascii '}' :: final ∧
      b = ⟨[], [], pos src (ascii '}' :: final), blockEnd src final⟩) ∨
    (space true bs).head? ≠ some (ascii '}') ∧ (ident (space true bs)).1 ≠ [] ∧
      (IsAttr (space true bs) ∧ (∃ a next b',
        attr src (ident (space true bs)).1 (lineStart (src.take (pos src (space true bs))))
          (space false (ident (space true bs)).2).tail = .ok (a, next) ∧
        body path src type n next = .ok (b', final) ∧ b = { b' with attrs := a :: b'.attrs }) ∨
      ¬ IsAttr (space true bs) ∧ ∃ nb next b',
        block path src n (space true bs) = .ok (some nb, next) ∧
        body path src type n next = .ok (b', final) ∧
        b = { b' with nested := { nb with start := lineStart (src.take (pos src (space true bs))) } ::
          b'.nested }) := by
  rw [body] at h
  cases hhere : space true bs with
  | nil =>
      rw [hhere] at h
      cases h
  | cons c rest =>
      rw [hhere] at h
      simp only at h
      by_cases hclose : c = ascii '}'
      · rw [if_pos hclose] at h
        obtain ⟨rfl, rfl⟩ := ok_pair_inj h
        exact Or.inl ⟨by rw [hclose], by rw [hclose]⟩
      · rw [if_neg hclose] at h
        split_ifs at h with hname hattr
        · obtain ⟨⟨a, next⟩, ha, h₁⟩ := bind_eq_ok.1 h
          obtain ⟨⟨b', final'⟩, hb, h₂⟩ := bind_eq_ok.1 h₁
          obtain ⟨rfl, rfl⟩ := ok_pair_inj h₂
          exact Or.inr ⟨by simpa using hclose, hname, Or.inl ⟨hattr, a, next, b', ha, hb, rfl⟩⟩
        · obtain ⟨⟨nb, next⟩, hnb, h₁⟩ := bind_eq_ok.1 h
          cases nb with
          | none => cases h₁
          | some nb =>
              obtain ⟨⟨b', final'⟩, hb, h₂⟩ := bind_eq_ok.1 h₁
              obtain ⟨rfl, rfl⟩ := ok_pair_inj h₂
              exact Or.inr ⟨by simpa using hclose, hname, Or.inr ⟨hattr, nb, next, b', hnb, hb, rfl⟩⟩

lemma block_cases (h : block path src n bs = .ok (some nb, next)) :
    ∃ m ls left b, n = m + 1 ∧ (ident bs).1 ≠ [] ∧
      labels (ident bs).1 (ident bs).2.length (ident bs).2 = .ok (ls, left) ∧
      body path src (ident bs).1 m left.tail = .ok (b, next) ∧
      nb = { file := path, type := (ident bs).1, labels := ls, start := pos src bs,
             openAt := pos src left, closeAt := b.closeAt, endAt := b.endAt, attrs := b.attrs,
             nested := b.nested } := by
  cases n with
  | zero => cases h
  | succ m =>
      rw [block] at h
      simp only at h
      split_ifs at h with hname
      · exact absurd (ok_pair_inj h).1 (by simp)
      · obtain ⟨⟨ls, left⟩, hlabels, h₁⟩ := bind_eq_ok.1 h
        obtain ⟨⟨b, rest⟩, hbody, h₂⟩ := bind_eq_ok.1 h₁
        obtain ⟨hnb, rfl⟩ := ok_pair_inj h₂
        exact ⟨m, ls, left, b, rfl, hname, hlabels, hbody, (Option.some.inj hnb).symm⟩

/-- What is left behind an attribute, from behind its equals sign. -/
def behindAttr (bs : Bytes) : Option Bytes :=
  (expr (space false bs).length 0 (space false bs)).toOption.map fun rest =>
    if (space false rest).head? = some (ascii '\n') then (space false rest).tail else space false rest

lemma behindAttr_of_attr {name : Bytes} {start : ℕ} (h : attr src name start bs = .ok (a, next)) :
    behindAttr bs = some next := by
  obtain ⟨rest, hexpr, h₁⟩ := bind_eq_ok.1 h
  rw [behindAttr, mapError_eq_ok.1 hexpr]
  exact congrArg some (ok_pair_inj h₁).2

/-- An attribute in front of the other items: where it starts and ends. -/
structure AttrStep (f u : Bytes) (a : TfAttr) (next : Bytes) : Prop where
  behind : behindAttr (space false (ident (u ++ next)).2).tail = some next
  lineStart : a.lineStart = lineStart f
  low : f.length < a.lineEnd
  high : a.lineEnd ≤ (f ++ u).length
  ends : (∃ w, u = w ++ [ascii '\n'] ∧ a.lineEnd = (f ++ u).length) ∨ AtClose next

lemma attrStep (hattr : IsAttr here)
    (h : attr (f ++ here) (ident here).1 (lineStart f) (space false (ident here).2).tail =
      .ok (a, next)) : ∃ u, here = u ++ next ∧ AttrStep f u a next := by
  obtain ⟨v, hv⟩ := exists_append (space_suffix false (ident here).2)
  obtain ⟨left, hleft⟩ := hattr.1
  rw [singleton_append] at hleft
  have hbehind := behindAttr_of_attr h
  -- the name, the blanks behind it and the equals sign
  obtain ⟨k, hk⟩ : ∃ k, (ident here).1 ++ v ++ [ascii '='] = k := ⟨_, rfl⟩
  have hplace : here = k ++ left := by
    rw [← hk]
    conv_lhs => rw [← ident_append here, hv, ← hleft]
    simp
  have hlen : 0 < k.length := by
    rw [← hk]
    simp
  rw [← hleft, tail_cons] at h
  conv at h => lhs; rw [hplace, ← append_assoc]
  obtain ⟨t, ht, hstart, hlow, hhigh, hend⟩ := attr_spec h
  have hsplit : here = k ++ t ++ next := by
    rw [hplace, ht, append_assoc]
  refine ⟨k ++ t, hsplit, hsplit ▸ hbehind, hstart, ?_, ?_, ?_⟩
  · rw [length_append] at hlow
    omega
  · rw [← append_assoc]
    exact hhigh
  · refine hend.imp_left ?_
    rintro ⟨w, rfl, hend⟩
    exact ⟨k ++ w, by rw [append_assoc], by rw [hend, append_assoc]⟩

/-- A block in front of a text: its brace, and the body behind. -/
structure BlockAt (f here u r : Bytes) (nb : TfBlock) (inner : Body) : Prop where
  here_eq : here = u ++ ascii '{' :: r
  labels : labels (ident here).1 (ident here).2.length (ident here).2 = .ok (nb.labels, ascii '{' :: r)
  openAt : nb.openAt = (f ++ u).length
  closeAt : nb.closeAt = inner.closeAt
  endAt : nb.endAt = inner.endAt
  attrs : nb.attrs = inner.attrs
  nested : nb.nested = inner.nested

lemma blockStep (h : block path (f ++ here) n here = .ok (some nb, next)) :
    ∃ m u r inner, n = m + 1 ∧ nb.start = f.length ∧ BlockAt f here u r nb inner ∧
      body path (f ++ u ++ [ascii '{'] ++ r) (ident here).1 m r = .ok (inner, next) := by
  obtain ⟨m, ls, left, b, hn, -, hlabels, hbody, rfl⟩ := block_cases h
  obtain ⟨hsuffix, hhead⟩ := labels_spec hlabels
  obtain ⟨r, rfl⟩ := head?_eq_some_iff.1 hhead
  obtain ⟨u, hu⟩ := exists_append (hsuffix.trans (ident_suffix here))
  have hsrc : f ++ here = f ++ u ++ ascii '{' :: r := by
    conv_lhs => rw [hu, ← append_assoc]
  refine ⟨m, u, r, b, hn, pos_append f here, ⟨hu, hlabels, ?_, rfl, rfl, rfl, rfl⟩, ?_⟩
  · simp only [hsrc, pos_append]
  · rw [hsrc] at hbody
    simpa using hbody

/-! ## How a body is read -/

/-- An item in front of the text `here`, behind the gap `g`. -/
structure ItemAt (g here : Bytes) : Prop where
  gap : space true (g ++ here) = here
  head : here.head? ≠ some (ascii '}')
  name : (ident here).1 ≠ []

/-- How the items of a body are read behind `f`, with the gap `g` in front of each. -/
inductive BodyRead : ℕ → Bytes → Bytes → Body → Bytes → Prop
  | close {n : ℕ} {f g final : Bytes}
      (gap : space true (g ++ ascii '}' :: final) = ascii '}' :: final) :
      BodyRead (n + 1) f (g ++ ascii '}' :: final)
        ⟨[], [], (f ++ g).length, blockEnd (f ++ (g ++ ascii '}' :: final)) final⟩ final
  | attr {n : ℕ} {f g u next final : Bytes} {a : TfAttr} {b : Body} (item : ItemAt g (u ++ next))
      (isAttr : IsAttr (u ++ next)) (step : AttrStep (f ++ g) u a next)
      (later : BodyRead n (f ++ g ++ u) next b final) :
      BodyRead (n + 1) f (g ++ (u ++ next)) { b with attrs := a :: b.attrs } final
  | nested {n : ℕ} {f g here u t next final : Bytes} {nb : TfBlock} {inner b : Body}
      (item : ItemAt g here) (notAttr : ¬ IsAttr here) (start : nb.start = lineStart (f ++ g))
      (block : BlockAt (f ++ g) here u (t ++ ascii '}' :: next) nb inner)
      (inside : BodyRead n (f ++ g ++ u ++ [ascii '{']) (t ++ ascii '}' :: next) inner next)
      (later : BodyRead (n + 1) (f ++ g ++ u ++ [ascii '{'] ++ t ++ [ascii '}']) next b final) :
      BodyRead (n + 2) f (g ++ here) { b with nested := nb :: b.nested } final

lemma BodyRead.close_eq (h : BodyRead n f bs b final) :
    ∃ t, bs = t ++ ascii '}' :: final ∧ b.closeAt = (f ++ t).length := by
  induction h with
  | @close _ _ g _ _ => exact ⟨g, rfl, rfl⟩
  | @attr _ _ g u _ _ _ _ _ _ _ _ ih =>
      obtain ⟨t, rfl, hclose⟩ := ih
      exact ⟨g ++ u ++ t, by simp, by simpa using hclose⟩
  | @nested _ _ g _ u t _ _ _ _ _ _ _ _ block _ _ _ ih =>
      obtain ⟨t', rfl, hclose⟩ := ih
      rw [block.here_eq]
      exact ⟨g ++ u ++ [ascii '{'] ++ t ++ [ascii '}'] ++ t', by simp, by simpa using hclose⟩

/-- A parsed body is read item by item. -/
theorem body_read (h : body path (f ++ bs) type n bs = .ok (b, final)) :
    BodyRead n f bs b final := by
  induction n using Nat.strong_induction_on generalizing type f bs b final with
  | _ n ih =>
      cases n with
      | zero => cases h
      | succ n =>
          obtain ⟨g, hg⟩ := exists_append (space_suffix true bs)
          obtain ⟨here, hhere⟩ : ∃ here, space true bs = here := ⟨_, rfl⟩
          have hcases := body_cases h
          rw [hhere] at hg hcases
          subst hg
          have hplace : f ++ (g ++ here) = f ++ g ++ here := (append_assoc ..).symm
          rw [hplace, take_pos] at hcases
          rcases hcases with ⟨rfl, rfl⟩ |
            ⟨hhead, hname, ⟨hattr, a, next, b', ha, hb, rfl⟩ | ⟨hattr, nb, next, b', hnb, hb, rfl⟩⟩
          · rw [pos_append, ← hplace]
            exact .close hhere
          · obtain ⟨u, rfl, hstep⟩ := attrStep hattr ha
            rw [← append_assoc] at hb
            exact .attr ⟨hhere, hhead, hname⟩ hattr hstep (ih n (Nat.lt_succ_self n) hb)
          · obtain ⟨m, u, r, inner, rfl, -, hblock, hinner⟩ := blockStep hnb
            have hinside := ih m (by omega) hinner
            obtain ⟨t, rfl, -⟩ := hinside.close_eq
            have hnext : f ++ g ++ here =
                f ++ g ++ u ++ [ascii '{'] ++ t ++ [ascii '}'] ++ next := by
              rw [hblock.here_eq]
              simp
            rw [hnext] at hb
            exact .nested ⟨hhere, hhead, hname⟩ hattr rfl
              ⟨hblock.1, hblock.2, hblock.3, hblock.4, hblock.5, hblock.6, hblock.7⟩ hinside
              (ih (m + 1) (Nat.lt_succ_self _) hb)

/-! ## Ranges -/

/-- The ranges of attributes, as they are edited, and of nested blocks. -/
def ranges (attrs : List TfAttr) (nested : List TfBlock) : List (ℕ × ℕ) :=
  attrs.map (fun a => (a.lineStart, a.lineEnd)) ++ nested.map fun b => (b.start, b.endAt)

/-- Two ranges do not overlap. -/
def Apart (r s : ℕ × ℕ) : Prop :=
  r.2 ≤ s.1 ∨ s.2 ≤ r.1

lemma apart_comm {r s : ℕ × ℕ} (h : Apart r s) : Apart s r :=
  h.symm

lemma ranges_nested (nb : TfBlock) (attrs : List TfAttr) (nested : List TfBlock) :
    (ranges attrs (nb :: nested)).Perm ((nb.start, nb.endAt) :: ranges attrs nested) :=
  perm_middle

/-- Where the ranges of a body may lie. -/
structure BodySpec (f bs : Bytes) (b : Body) (final : Bytes) : Prop where
  endAt : b.endAt = blockEnd (f ++ bs) final
  starts : ∀ r ∈ ranges b.attrs b.nested,
    (∃ w w', bs = w ++ w' ∧ r.1 = lineStart (f ++ w)) ∧ f.length < r.2
  attrs : ∀ a ∈ b.attrs, a.lineEnd ≤ b.closeAt
  closeAt : f.length ≤ b.closeAt ∧ b.closeAt < b.endAt

/-- What holds of the items behind a text holds behind what stands in front of it. -/
lemma BodySpec.behind {u : Bytes} (h : BodySpec (f ++ u) bs b final) :
    b.endAt = blockEnd (f ++ (u ++ bs)) final ∧ f.length ≤ b.closeAt ∧
      ∀ r ∈ ranges b.attrs b.nested,
        (∃ w w', u ++ bs = w ++ w' ∧ r.1 = lineStart (f ++ w)) ∧ f.length < r.2 := by
  have hlen : f.length ≤ (f ++ u).length := by simp
  refine ⟨by rw [h.endAt, append_assoc], hlen.trans h.closeAt.1, fun r hr => ?_⟩
  obtain ⟨⟨w, w', rfl, hstart⟩, hend⟩ := h.starts r hr
  exact ⟨⟨u ++ w, w', by simp, by rw [hstart, append_assoc]⟩, hlen.trans_lt hend⟩

/-- A body that is read item by item has its items where they stand. -/
theorem BodyRead.spec (h : BodyRead n f bs b final) : BodySpec f bs b final := by
  induction h with
  | @close _ f g final _ =>
      have hend := (blockEnd_spec (f ++ g ++ [ascii '}']) final).1
      simp only [append_assoc, singleton_append, length_append, length_singleton] at hend
      refine ⟨rfl, by simp [ranges], by simp, by simp, ?_⟩
      simp only [length_append]
      omega
  | @attr _ f g u next final a b item isAttr step later ih =>
      rw [append_assoc] at ih
      obtain ⟨hend, hclose, hstarts⟩ := ih.behind
      rw [append_assoc] at hend hstarts
      refine ⟨hend, ?_, ?_, hclose, ih.closeAt.2⟩
      · intro r hr
        rcases mem_cons.1 hr with rfl | hr
        · exact ⟨⟨g, _, rfl, step.lineStart⟩, lt_of_le_of_lt (by simp) step.low⟩
        · exact hstarts r hr
      · intro a' ha'
        rcases mem_cons.1 ha' with rfl | ha'
        · refine step.high.trans ?_
          rw [append_assoc]
          exact ih.closeAt.1
        · exact ih.attrs a' ha'
  | @nested n f g here u t next final nb inner b item notAttr start block inside later ihin ih =>
      have hsplit : f ++ g ++ u ++ [ascii '{'] ++ t ++ [ascii '}'] =
          f ++ (g ++ u ++ [ascii '{'] ++ t ++ [ascii '}']) := by simp
      rw [hsplit] at ih
      obtain ⟨hend, hclose, hstarts⟩ := ih.behind
      have hbs : g ++ u ++ [ascii '{'] ++ t ++ [ascii '}'] ++ next = g ++ here := by
        rw [block.here_eq]
        simp
      rw [hbs] at hend hstarts
      refine ⟨hend, fun r hr => ?_, ih.attrs, hclose, ih.closeAt.2⟩
      rcases mem_cons.1 ((ranges_nested _ _ _).mem_iff.1 hr) with rfl | hr
      · refine ⟨⟨g, _, rfl, start⟩, ?_⟩
        have hlt := ihin.closeAt
        simp only [block.endAt, length_append] at hlt ⊢
        omega
      · exact hstarts r hr

/-! ## Lines of their own -/

/-- What stands in front of an item of a block. -/
inductive Before where
  | brace
  | attr
  | block
  deriving DecidableEq

mutual

/-- Every item of the body has its own lines; what is left behind the closing brace.  An attribute is
not on the line of the opening brace, and nothing is on the line where a nested block ends. -/
def bodyLines : ℕ → Before → Bytes → Option Bytes
  | 0, _, _ => none
  | n + 1, before, bs =>
    let here := space true bs
    let newline := ascii '\n' ∈ bs.take (bs.length - here.length)
    if here.head? = some (ascii '}') then some here.tail
    else if IsAttr here then
      if before = .attr ∨ newline then
        (behindAttr (space false (ident here).2).tail).bind (bodyLines n .attr)
      else none
    else if before = .block → newline then (blockLines n here).bind (bodyLines n .block)
    else none

def blockLines : ℕ → Bytes → Option Bytes
  | 0, _ => none
  | n + 1, bs =>
    (labels (ident bs).1 (ident bs).2.length (ident bs).2).toOption.bind fun r =>
      bodyLines n .brace r.2.tail

end

/-- The attributes of the block, and of the blocks in it, are inside its braces, and the ranges of its
items are apart. -/
inductive Spanned : TfBlock → Prop
  | mk (b : TfBlock) (attrs : ∀ a ∈ b.attrs, b.openAt < a.lineStart ∧ a.lineEnd ≤ b.closeAt)
      (apart : (ranges b.attrs b.nested).Pairwise Apart)
      (nested : ∀ nb ∈ b.nested, Spanned nb) : Spanned b

/-- The items of a body as far as they have been read: they are apart, and those that must start
behind the place do. -/
structure BodySpanned (before : Before) (i : ℕ) (b : Body) : Prop where
  apart : (ranges b.attrs b.nested).Pairwise Apart
  nested : ∀ nb ∈ b.nested, Spanned nb
  behind : before = .block → ∀ r ∈ ranges b.attrs b.nested, i ≤ r.1
  inside : before = .brace → ∀ a ∈ b.attrs, i ≤ a.lineStart

lemma spanned_iff {here u : Bytes} {n : ℕ} {nb : TfBlock} {b : Body} {final : Bytes}
    (hnb : BlockAt f here u bs nb b) (hb : BodyRead n (f ++ u ++ [ascii '{']) bs b final) :
    Spanned nb ↔ BodySpanned .brace (f ++ u ++ [ascii '{']).length b := by
  have hopen : nb.openAt + 1 = (f ++ u ++ [ascii '{']).length := by
    simp only [hnb.openAt, length_append, length_singleton]
  constructor
  · rintro ⟨_, hinside, hapart, hspanned⟩
    rw [hnb.attrs, hnb.nested] at hapart
    rw [hnb.attrs] at hinside
    rw [hnb.nested] at hspanned
    refine ⟨hapart, hspanned, nofun, fun _ a ha => ?_⟩
    have hlt := (hinside a ha).1
    omega
  · intro h
    refine ⟨_, fun a ha => ?_, ?_, ?_⟩
    · rw [hnb.attrs] at ha
      have hle := h.inside rfl a ha
      exact ⟨by omega, hnb.closeAt ▸ hb.spec.attrs a ha⟩
    · rw [hnb.attrs, hnb.nested]
      exact h.apart
    · rw [hnb.nested]
      exact h.nested

/-- Behind a closing bracket there are no more items. -/
lemma BodyRead.ranges_of_atClose (h : BodyRead n f bs b final) (hbs : AtClose bs) :
    ranges b.attrs b.nested = [] := by
  have hno {g here : Bytes} (hbs : AtClose (g ++ here)) (item : ItemAt g here) : False := by
    have hgap := item.gap
    rw [space_atClose hbs] at hgap
    refine item.name ?_
    rw [← hgap, ident, if_neg]
    cases hhead : (g ++ here).head? with
    | none => simp
    | some c =>
        have hplain : isIdentStart c = false := by
          rcases hbs c hhead with rfl | rfl | rfl <;> decide
        simp [hplain]
  cases h with
  | close => rfl
  | attr item => exact (hno hbs item).elim
  | nested item => exact (hno hbs item).elim

/-- The byte in front of the place does not end a line. -/
def MidLine (f : Bytes) : Prop :=
  ∃ f₀ c, f = f₀ ++ [c] ∧ c ≠ ascii '\n'

lemma MidLine.le_lineStart_iff (hf : MidLine f) (g : Bytes) :
    f.length ≤ lineStart (f ++ g) ↔ ascii '\n' ∈ g := by
  obtain ⟨f₀, c, rfl, hc⟩ := hf
  exact length_le_lineStart_iff hc

variable {before : Before}

/-- An attribute in front of other items. -/
lemma bodySpanned_attr {g u : Bytes} (hf : before ≠ .attr → MidLine f)
    (ha : AttrStep (f ++ g) u a next) (hb : BodyRead n (f ++ g ++ u) next b final) :
    BodySpanned before f.length { b with attrs := a :: b.attrs } ↔
      (before = .attr ∨ ascii '\n' ∈ g) ∧ BodySpanned .attr (f ++ g ++ u).length b := by
  have hlater : ∀ r ∈ ranges b.attrs b.nested, lineStart (f ++ g ++ u) ≤ r.1 := by
    intro r hr
    obtain ⟨⟨w, w', -, hstart⟩, -⟩ := hb.spec.starts r hr
    rw [hstart]
    exact lineStart_mono ..
  have hnewline : before ≠ .attr → (f.length ≤ a.lineStart ↔ ascii '\n' ∈ g) := by
    intro hbefore
    rw [ha.lineStart]
    exact (hf hbefore).le_lineStart_iff g
  constructor
  · intro h
    refine ⟨?_, (pairwise_cons.1 h.apart).2, h.nested, nofun, nofun⟩
    cases hbefore : before with
    | attr => exact Or.inl rfl
    | brace =>
        refine Or.inr ((hnewline (by simp [hbefore])).1 ?_)
        exact h.inside hbefore a (mem_cons_self ..)
    | block =>
        refine Or.inr ((hnewline (by simp [hbefore])).1 ?_)
        exact h.behind hbefore _ (mem_cons_self ..)
  · rintro ⟨hline, h⟩
    have hfirst (hbefore : before ≠ .attr) : f.length ≤ a.lineStart :=
      (hnewline hbefore).2 (hline.resolve_left hbefore)
    have hrest (hbefore : before ≠ .attr) (r) (hr : r ∈ ranges b.attrs b.nested) : f.length ≤ r.1 := by
      refine ((hfirst hbefore).trans ?_).trans (hlater r hr)
      rw [ha.lineStart]
      exact lineStart_mono ..
    have hapart : ∀ r ∈ ranges b.attrs b.nested, Apart (a.lineStart, a.lineEnd) r := by
      intro r hr
      rcases ha.ends with ⟨w, rfl, hend⟩ | hclose
      · refine Or.inl (le_trans (le_of_eq ?_) (hlater r hr))
        rw [← append_assoc, lineStart_newline, hend]
        simp only [length_append, length_singleton]
        omega
      · rw [hb.ranges_of_atClose hclose] at hr
        cases hr
    refine ⟨pairwise_cons.2 ⟨hapart, h.apart⟩, h.nested, ?_, ?_⟩
    · intro hbefore r hr
      have hne : before ≠ .attr := by simp [hbefore]
      rcases mem_cons.1 hr with rfl | hr
      · exact hfirst hne
      · exact hrest hne r hr
    · intro hbefore a' ha'
      have hne : before ≠ .attr := by simp [hbefore]
      rcases mem_cons.1 ha' with rfl | ha'
      · exact hfirst hne
      · exact hrest hne _ (mem_append_left _ (mem_map_of_mem ha'))

/-- A nested block in front of other items. -/
lemma bodySpanned_nested {g u t : Bytes} {m : ℕ} {inner : Body} (hf : before = .block → MidLine f)
    (hstart : nb.start = lineStart (f ++ g)) (hnb : BlockAt (f ++ g) here u (t ++ ascii '}' :: next) nb inner)
    (hinner : BodyRead m (f ++ g ++ u ++ [ascii '{']) (t ++ ascii '}' :: next) inner next)
    (hb : BodyRead n (f ++ g ++ u ++ [ascii '{'] ++ t ++ [ascii '}']) next b final) :
    BodySpanned before f.length { b with nested := nb :: b.nested } ↔
      (before = .block → ascii '\n' ∈ g) ∧ Spanned nb ∧
        BodySpanned .block (f ++ g ++ u ++ [ascii '{'] ++ t ++ [ascii '}']).length b := by
  -- the place behind the closing brace
  obtain ⟨f', hf'⟩ : ∃ f', f ++ g ++ u ++ [ascii '{'] ++ t ++ [ascii '}'] = f' := ⟨_, rfl⟩
  have hmid : MidLine f' := ⟨_, _, hf'.symm, by decide⟩
  have hsrc : f ++ g ++ u ++ [ascii '{'] ++ (t ++ ascii '}' :: next) = f' ++ next := by
    rw [← hf']
    simp
  rw [hf'] at hb ⊢
  have hblock := blockEnd_spec f' next
  rw [← hsrc, ← hinner.spec.endAt, ← hnb.endAt] at hblock
  have hstartLe : nb.start ≤ f'.length := by
    rw [hstart, ← hf']
    refine (lineStart_le _).trans ?_
    simp
  -- a later item starts behind the block exactly if it starts behind the brace
  have hlater : ∀ r ∈ ranges b.attrs b.nested, Apart (nb.start, nb.endAt) r ↔ f'.length ≤ r.1 := by
    intro r hr
    obtain ⟨⟨w, w', hw, hr₁⟩, hr₂⟩ := hb.spec.starts r hr
    constructor
    · rintro (hle | hle)
      · exact hblock.1.trans hle
      · exact absurd (hr₂.trans_le hle) (not_lt.2 hstartLe)
    · intro hle
      rw [hr₁, hmid.le_lineStart_iff] at hle
      obtain ⟨a, c, rfl, -, hline⟩ := exists_lineStart f' hle
      refine Or.inl ?_
      rw [hr₁, hline]
      exact hblock.2 a (c ++ w') (by rw [hw]; simp)
  have hperm := ranges_nested nb b.attrs b.nested
  constructor
  · intro h
    have happart := pairwise_cons.1 ((hperm.pairwise_iff apart_comm).1 h.apart)
    refine ⟨fun hbefore => ?_, h.nested nb (mem_cons_self ..), happart.2,
      fun b' hb' => h.nested b' (mem_cons_of_mem _ hb'), ?_, nofun⟩
    · have hle := h.behind hbefore _ (hperm.mem_iff.2 (mem_cons_self ..))
      rw [hstart] at hle
      exact ((hf hbefore).le_lineStart_iff g).1 hle
    · exact fun _ r hr => (hlater r hr).1 (happart.1 r hr)
  · rintro ⟨hline, hnb, h⟩
    have hbehind (r) (hr : r ∈ ranges b.attrs b.nested) : f.length ≤ r.1 := by
      refine le_trans ?_ (h.behind rfl r hr)
      rw [← hf']
      simp only [length_append]
      omega
    refine ⟨(hperm.pairwise_iff apart_comm).2 (pairwise_cons.2
      ⟨fun r hr => (hlater r hr).2 (h.behind rfl r hr), h.apart⟩), ?_, ?_, ?_⟩
    · intro b' hb'
      rcases mem_cons.1 hb' with rfl | hb'
      · exact hnb
      · exact h.nested b' hb'
    · intro hbefore r hr
      rcases mem_cons.1 (hperm.mem_iff.1 hr) with rfl | hr
      · simp only [hstart]
        exact ((hf hbefore).le_lineStart_iff g).2 (hline hbefore)
      · exact hbehind r hr
    · exact fun _ a ha => hbehind _ (mem_append_left _ (mem_map_of_mem ha))

/-- The items of a body are apart exactly if they have lines of their own. -/
theorem bodyLines_iff (hf : before ≠ .attr → MidLine f) (h : BodyRead n f bs b final) (rest : Bytes) :
    bodyLines n before bs = some rest ↔ rest = final ∧ BodySpanned before f.length b := by
  induction h generalizing before rest with
  | @close n f g final gap =>
      rw [bodyLines]
      simp only [gap, head?_cons, if_true, tail_cons, Option.some.injEq]
      rw [eq_comm]
      refine (and_iff_left ?_).symm
      exact ⟨by simp [ranges], by simp, by simp [ranges], by simp⟩
  | @attr n f g u next final a b item isAttr step later ih =>
      rw [bodyLines]
      simp only [item.gap, take_length_sub, item.head, isAttr, if_false, if_true]
      rw [bodySpanned_attr hf step later]
      split_ifs with hline
      · rw [step.behind, Option.bind_some, ih (fun hne => absurd rfl hne)]
        tauto
      · simp [hline]
  | @nested n f g here u t next final nb inner b item notAttr start block inside later ihin ih =>
      rw [bodyLines]
      simp only [item.gap, take_length_sub, item.head, notAttr, if_false]
      have hblock (left : Bytes) : blockLines (n + 1) here = some left ↔ left = next ∧ Spanned nb := by
        rw [blockLines, block.labels, spanned_iff block inside]
        exact ihin (fun _ => ⟨_, _, rfl, by decide⟩) left
      rw [bodySpanned_nested (fun hbefore => hf (by simp [hbefore])) start block inside later]
      have hlater (rest : Bytes) : bodyLines (n + 1) .block next = some rest ↔ _ :=
        ih (fun _ => ⟨_, _, rfl, by decide⟩) rest
      split_ifs with hline
      · rw [Option.bind_eq_some_iff]
        simp only [hblock]
        constructor
        · rintro ⟨_, ⟨rfl, hbrace⟩, hrest⟩
          obtain ⟨rfl, htail⟩ := (hlater _).1 hrest
          exact ⟨rfl, hline, hbrace, htail⟩
        · rintro ⟨rfl, -, hbrace, htail⟩
          exact ⟨next, ⟨rfl, hbrace⟩, (hlater _).2 ⟨rfl, htail⟩⟩
      · simp [hline]

end

end TfScanner

end AuthSec
