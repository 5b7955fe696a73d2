import AuthSec.Terraform.Spans

/-!
# The layout of a Terraform file

* `parseTerraform_topLevel`: the top-level blocks are in order, and nothing but what the scanner skips
  is outside them;
* `parseTerraform_spans_iff`: the ranges of attributes and nested blocks are inside their block and
  apart exactly if every item has lines of its own.
-/

namespace AuthSec

open List

namespace TfScanner

open LitParser

/-! ## Gaps -/

section

variable {here : Bytes}

lemma skipSpace_succ {nl : Bool} {n : ℕ} {bs : Bytes} (h : bs.length ≤ n) :
    skipSpace nl (n + 1) bs = skipSpace nl n bs := by
  induction n generalizing bs with
  | zero =>
      obtain rfl := length_eq_zero_iff.1 (Nat.le_zero.1 h)
      rfl
  | succ n ih =>
      cases bs with
      | nil => rfl
      | cons c bs =>
          have hlen : bs.length ≤ n := Nat.le_of_succ_le_succ h
          have hshort {left : Bytes} (hleft : left <:+ bs) : left.length ≤ n :=
            hleft.length_le.trans hlen
          rw [skipSpace, skipSpace, ih hlen, ih (hshort (dropWhile_suffix _)),
            ih (hshort ((afterComment_suffix _).trans (tail_suffix bs)))]

lemma space_of_skipSpace {n : ℕ} {bs : Bytes} (hn : bs.length ≤ n) :
    skipSpace true n bs = space true bs := by
  induction n, hn using Nat.le_induction with
  | base => rfl
  | succ n hn ih => rw [skipSpace_succ hn, ih]

/-- A comment that ends in the gap, or does not end in it. -/
lemma afterComment_append (hslash : here.head? ≠ some (ascii '/')) (g : Bytes) :
    afterComment (g ++ here) = afterComment g ++ here ∨
      afterComment g = [] ∧ afterComment (g ++ here) = afterComment here := by
  induction g with
  | nil => exact Or.inr ⟨rfl, rfl⟩
  | cons b g ih =>
      rw [cons_append, afterComment, afterComment]
      by_cases hend : [ascii '*', ascii '/'] <+: b :: g
      · have hend' : [ascii '*', ascii '/'] <+: b :: (g ++ here) := by
          rw [← cons_append]
          exact hend.trans (prefix_append ..)
        rw [if_pos hend, if_pos hend']
        obtain ⟨r, hr⟩ := (cons_prefix_cons.1 hend).2
        rw [← hr]
        exact Or.inl rfl
      · have hend' : ¬ [ascii '*', ascii '/'] <+: b :: (g ++ here) := by
          intro hpre
          rw [cons_prefix_cons] at hpre hend
          cases g with
          | nil =>
              obtain ⟨r, hr⟩ := hpre.2
              exact hslash (by rw [← nil_append here, ← hr]; rfl)
          | cons c g =>
              rw [cons_append, cons_prefix_cons] at hpre
              rw [cons_prefix_cons] at hend
              exact hend ⟨hpre.1, hpre.2.1, List.nil_prefix⟩
        rw [if_neg hend, if_neg hend']
        exact ih

/-- What the scanner passes over in front of a name, it passes over alone. -/
lemma skipSpace_gap (hhere : ∀ c ∈ here.head?, isIdentStart c = true) {n : ℕ} {g : Bytes}
    (h : skipSpace true n (g ++ here) = here) : skipSpace true n g = [] := by
  have hplain : ∀ c ∈ here.head?, c ≠ ascii '\n' ∧ c ≠ ascii '/' ∧ c ≠ ascii '*' := by
    have hall : ∀ d ∈ ['\n', '/', '*'], isIdentStart (ascii d) = false := by decide
    intro c hc
    have hstart := hhere c hc
    refine ⟨?_, ?_, ?_⟩ <;> rintro rfl <;> simp [hall] at hstart
  have hnil (n : ℕ) : skipSpace true n [] = [] := by cases n <;> rfl
  have htwo {a b c : UInt8} (hb : here.head? ≠ some b) (g : Bytes) :
      [a, b] <+: c :: (g ++ here) ↔ [a, b] <+: c :: g := by
    cases g with
    | nil =>
        cases here with
        | nil => rfl
        | cons d here =>
            have hd : b ≠ d := fun heq => hb (by rw [heq]; rfl)
            simp [cons_prefix_cons, hd]
    | cons d g => simp [cons_prefix_cons]
  induction n generalizing g with
  | zero =>
      rw [skipSpace] at h ⊢
      exact append_left_eq_self.1 h
  | succ n ih =>
      cases g with
      | nil => rfl
      | cons c g =>
          rw [cons_append, skipSpace] at h
          simp only [htwo fun heq => (hplain _ heq).2.1 rfl,
            htwo fun heq => (hplain _ heq).2.2 rfl, if_true] at h
          rw [skipSpace, if_pos (rfl : true = true)]
          split_ifs at h ⊢ with hblank hnewline hline hcomment
          · exact ih h
          · exact ih h
          · rw [dropWhile_append] at h
            split_ifs at h with hempty
            · -- the comment is the last thing in the gap, and then in the text
              have hg := List.isEmpty_iff.1 hempty
              rw [hg]
              exact hnil n
            · exact ih h
          · obtain ⟨-, r, hr⟩ := cons_prefix_cons.1 hcomment
            rw [← hr] at h ⊢
            rcases afterComment_append (fun heq => (hplain _ heq).2.1 rfl) r with hend | ⟨hend, -⟩
            · have hrest : skipSpace true n (afterComment r ++ here) = here := by
                rw [← hend]
                exact h
              exact ih hrest
            · change skipSpace true n (afterComment r) = []
              rw [hend]
              exact hnil n
          · have hlen := congrArg List.length h
            simp only [length_cons, length_append] at hlen
            omega

/-- A gap in front of a name, or at the end of the text. -/
lemma space_gap {g : Bytes} (hhere : ∀ c ∈ here.head?, isIdentStart c = true)
    (h : space true (g ++ here) = here) : space true g = [] := by
  rw [← space_of_skipSpace (n := (g ++ here).length) (by simp)]
  exact skipSpace_gap hhere h

/-- The end of a block is a place from which the scanner goes on as from behind the brace. -/
lemma blockEnd_place (f rest : Bytes) : ∃ k rest', rest = k ++ rest' ∧
    blockEnd (f ++ rest) rest = (f ++ k).length ∧ space true rest = space true rest' := by
  have hskip {g : Bytes} (hg : ∀ b ∈ g, isBlank b = true) (n : ℕ) (l : Bytes) :
      skipSpace true (n + g.length) (g ++ l) = skipSpace true n l := by
    induction g with
    | nil => rfl
    | cons b g ih =>
        rw [length_cons, ← Nat.add_assoc, cons_append, skipSpace, if_pos (hg b (by simp))]
        exact ih fun c hc => hg c (by simp [hc])
  obtain ⟨k, left, rfl, hend, hk⟩ := blockEnd_cases f rest
  refine ⟨k, left, rfl, hend, ?_⟩
  rcases hk with rfl | ⟨g, rfl, hblank⟩
  · rfl
  · have hlen : (g ++ [ascii '\n'] ++ left).length = left.length + 1 + g.length := by
      simp only [length_append, length_singleton]
      omega
    rw [space, hlen, append_assoc, hskip hblank, singleton_append, skipSpace,
      if_neg (by decide), if_pos rfl, if_pos rfl]
    rfl

lemma isIdentStart_of_ident {bs : Bytes} (h : (ident bs).1 ≠ []) :
    ∀ c ∈ bs.head?, isIdentStart c = true := by
  intro c hc
  by_contra hne
  refine h ?_
  rw [ident, if_neg]
  rw [Option.mem_def.1 hc]
  exact hne

end

/-! ## Top-level blocks -/

/-- The texts between the blocks, from a position on. -/
def gaps (src : Bytes) : ℕ → List TfBlock → List Bytes
  | i, [] => [src.drop i]
  | i, b :: bs => (src.drop i).take (b.start - i) :: gaps src b.endAt bs

section

variable {path : String} {f bs : Bytes}

lemma blocks_cases {src : Bytes} {n : ℕ} {bl : List TfBlock}
    (h : blocks path src (n + 1) bs = .ok bl) : space true bs = [] ∧ bl = [] ∨
      space true bs ≠ [] ∧ ∃ b next later,
        block path src (src.length + 1) (space true bs) = .ok (some b, next) ∧
        blocks path src n next = .ok later ∧ bl = b :: later := by
  rw [blocks] at h
  cases hhere : space true bs with
  | nil =>
      rw [hhere] at h
      exact Or.inl ⟨rfl, (Except.ok.inj h).symm⟩
  | cons c rest =>
      rw [hhere] at h
      obtain ⟨⟨b, next⟩, hblock, h₁⟩ := bind_eq_ok.1 h
      cases b with
      | none => cases h₁
      | some b =>
          obtain ⟨later, hlater, h₂⟩ := bind_eq_ok.1 h₁
          exact Or.inr ⟨nofun, b, next, later, hblock, hlater, (Except.ok.inj h₂).symm⟩

/-- A block in front of a text, and the place behind its closing brace. -/
lemma block_read {here next : Bytes} {n : ℕ} {nb : TfBlock}
    (h : block path (f ++ here) n here = .ok (some nb, next)) :
    ∃ m u t inner, n = m + 1 ∧ nb.start = f.length ∧
      BlockAt f here u (t ++ ascii '}' :: next) nb inner ∧
      BodyRead m (f ++ u ++ [ascii '{']) (t ++ ascii '}' :: next) inner next ∧
      f ++ here = f ++ u ++ [ascii '{'] ++ t ++ [ascii '}'] ++ next := by
  obtain ⟨m, u, r, inner, hn, hstart, hblock, hinner⟩ := blockStep h
  have hread := body_read hinner
  obtain ⟨t, rfl, -⟩ := hread.close_eq
  refine ⟨m, u, t, inner, hn, hstart, hblock, hread, ?_⟩
  rw [hblock.here_eq]
  simp

lemma blocks_spec {src : Bytes} {n : ℕ} {f' bs' : Bytes} {bl : List TfBlock} (hsrc : src = f ++ bs)
    (hsrc' : src = f' ++ bs') (hspace : space true bs = space true bs')
    (h : blocks path src n bs = .ok bl) :
    bl.Pairwise (fun b c => b.endAt ≤ c.start) ∧
      (∀ b ∈ bl, f'.length ≤ b.start ∧ b.start < b.endAt ∧ b.endAt ≤ src.length) ∧
      ∀ g ∈ gaps src f'.length bl, space true g = [] := by
  induction n generalizing f bs f' bs' bl with
  | zero => cases h
  | succ n ih =>
      obtain ⟨g, hg⟩ := exists_append (space_suffix true bs')
      have hcases := blocks_cases h
      obtain ⟨here, hhere⟩ : ∃ here, space true bs' = here := ⟨_, rfl⟩
      rw [hspace, hhere] at hcases
      rw [hhere] at hg
      rcases hcases with ⟨rfl, rfl⟩ | ⟨-, b, next, later, hblock, hlater, rfl⟩
      · refine ⟨.nil, by simp, fun g' hg' => ?_⟩
        obtain rfl : g' = src.drop f'.length := by simpa [gaps] using hg'
        rw [hsrc', drop_left]
        exact hhere
      · have hplace : src = f' ++ g ++ here := by
          rw [hsrc', hg, append_assoc]
        have hname : (ident here).1 ≠ [] := by
          obtain ⟨_, _, _, _, _, hname, -⟩ := block_cases hblock
          exact hname
        rw [hplace] at hblock
        obtain ⟨m, u, t, inner, -, hstart, hb, hread, hnext⟩ := block_read hblock
        rw [← hplace] at hnext
        -- the place behind the closing brace, and the end of the block
        obtain ⟨F, hF⟩ : ∃ F, f' ++ g ++ u ++ [ascii '{'] ++ t ++ [ascii '}'] = F := ⟨_, rfl⟩
        rw [hF] at hnext
        obtain ⟨k, next', rfl, hend, hspace'⟩ := blockEnd_place F next
        have hendAt : b.endAt = (F ++ k).length := by
          rw [hb.endAt, hread.spec.endAt, ← hend, ← hF]
          simp
        have hnext' : src = F ++ k ++ next' := by rw [hnext, append_assoc]
        obtain ⟨horder, hspans, hgaps⟩ := ih hnext hnext' hspace' hlater
        rw [← hendAt] at hspans hgaps
        have hlt : (f' ++ g).length < b.endAt := by
          have hlt := hread.spec.closeAt
          rw [hb.endAt]
          simp only [length_append] at hlt ⊢
          omega
        refine ⟨.cons (fun c hc => (hspans c hc).1) horder, ?_, ?_⟩
        · intro c hc
          rcases mem_cons.1 hc with rfl | hc
          · refine ⟨by simp [hstart], hstart ▸ hlt, ?_⟩
            rw [hendAt, hnext']
            simp
          · obtain ⟨hlow, hlt', hhigh⟩ := hspans c hc
            refine ⟨?_, hlt', hhigh⟩
            rw [length_append] at hlt
            omega
        · intro g' hg'
          rcases mem_cons.1 hg' with rfl | hg'
          · have hgap : (src.drop f'.length).take (b.start - f'.length) = g := by
              rw [hplace, hstart]
              simp
            rw [hgap]
            refine space_gap (isIdentStart_of_ident hname) ?_
            rw [← hg]
            exact hhere
          · exact hgaps g' hg'

/-! ## Files -/

/-- A block has its own ranges exactly if its items have lines of their own. -/
lemma blockLines_iff {here next : Bytes} {n : ℕ} {nb : TfBlock}
    (h : block path (f ++ here) n here = .ok (some nb, next)) (left : Bytes) :
    blockLines n here = some left ↔ left = next ∧ Spanned nb := by
  obtain ⟨m, u, t, inner, rfl, -, hb, hread, -⟩ := block_read h
  rw [blockLines, hb.labels, spanned_iff hb hread]
  exact bodyLines_iff (fun _ => ⟨_, _, rfl, by decide⟩) hread left

/-- Every item of every block of the text has lines of its own. -/
def fileLines (room : ℕ) : ℕ → Bytes → Bool
  | 0, _ => false
  | n + 1, bs => space true bs == [] || (blockLines room (space true bs)).any (fileLines room n)

lemma fileLines_iff {src : Bytes} {n : ℕ} {bl : List TfBlock} (hsrc : src = f ++ bs)
    (h : blocks path src n bs = .ok bl) :
    fileLines (src.length + 1) n bs = true ↔ ∀ b ∈ bl, Spanned b := by
  induction n generalizing f bs bl with
  | zero => cases h
  | succ n ih =>
      rw [fileLines]
      rcases blocks_cases h with ⟨hnil, rfl⟩ | ⟨hne, b, next, later, hblock, hlater, rfl⟩
      · simp [hnil]
      · obtain ⟨g, hg⟩ := exists_append (space_suffix true bs)
        have hplace : src = f ++ g ++ space true bs := by
          rw [hsrc, append_assoc, ← hg]
        have hblock' : block path (f ++ g ++ space true bs) (src.length + 1) (space true bs) =
            .ok (some b, next) := by
          rw [← hplace]
          exact hblock
        have hlines := blockLines_iff hblock'
        obtain ⟨m, u, t, inner, -, -, -, -, hnext⟩ := block_read hblock'
        rw [← hplace] at hnext
        rw [beq_eq_false_iff_ne.2 hne, Bool.false_or, Option.any_eq_true, forall_mem_cons]
        constructor
        · rintro ⟨left, hleft, hfile⟩
          obtain ⟨rfl, hb⟩ := (hlines left).1 hleft
          exact ⟨hb, (ih hnext hlater).1 hfile⟩
        · rintro ⟨hb, hbl⟩
          exact ⟨next, (hlines next).2 ⟨rfl, hb⟩, (ih hnext hlater).2 hbl⟩

end

end TfScanner

open TfScanner

/-- Every attribute of the text starts on a later line than the brace that opens its block, and every
item on a later line than the nested block in front of it. -/
def OwnLines (src : Bytes) : Prop :=
  fileLines (src.length + 1) (src.length + 1) src = true

instance (src : Bytes) : Decidable (OwnLines src) :=
  inferInstanceAs (Decidable (_ = true))

/-- The ranges of the blocks of a text, at every depth. -/
structure WellSpanned (src : Bytes) (bl : List TfBlock) : Prop where
  order : bl.Pairwise fun b c => b.endAt ≤ c.start
  inside : ∀ b ∈ bl, b.start < b.endAt ∧ b.endAt ≤ src.length
  outside : ∀ g ∈ gaps src 0 bl, space true g = []
  blocks : ∀ b ∈ bl, Spanned b

section

variable {path : String} {src : Bytes} {bl : List TfBlock}

/-- The top-level blocks are in order, with nothing but blanks and comments outside. -/
theorem parseTerraform_topLevel (h : parseTerraform path src = .ok bl) :
    bl.Pairwise (fun b c => b.endAt ≤ c.start) ∧
      (∀ b ∈ bl, b.start < b.endAt ∧ b.endAt ≤ src.length) ∧
      ∀ g ∈ gaps src 0 bl, space true g = [] := by
  have hsrc : src = [] ++ src := rfl
  obtain ⟨horder, hinside, houtside⟩ := blocks_spec hsrc hsrc rfl (mapError_eq_ok.1 h)
  exact ⟨horder, fun b hb => (hinside b hb).2, houtside⟩

/-- The ranges of a text are those of the property exactly if every item has lines of its own. -/
theorem parseTerraform_spans_iff (h : parseTerraform path src = .ok bl) :
    WellSpanned src bl ↔ OwnLines src := by
  have hsrc : src = [] ++ src := rfl
  have hlines := fileLines_iff hsrc (mapError_eq_ok.1 h)
  obtain ⟨horder, hinside, houtside⟩ := parseTerraform_topLevel h
  rw [OwnLines, hlines]
  exact ⟨fun hspans => hspans.blocks, fun hblocks => ⟨horder, hinside, houtside, hblocks⟩⟩

/-- A role with its boundary and a nested block, each on lines of its own. -/
theorem parseTerraform_spans_role :
    let src := utf8 "resource \"aws_iam_role\" \"r\" \x7b\n  path = \"/\" # root\n  timeouts \x7b\n  \x7d\n\x7d\n"
    ∃ bl, parseTerraform "main.tf" src = .ok bl ∧ WellSpanned src bl := by
  intro src
  have hok : (parseTerraform "main.tf" src).isOk = true := by decide +kernel
  cases hparse : parseTerraform "main.tf" src with
  | ok bl => exact ⟨bl, rfl, (parseTerraform_spans_iff hparse).2 (by decide +kernel)⟩
  | error e =>
      rw [hparse] at hok
      cases hok

/-- The edit range of an attribute in a block of one line starts in front of the block's brace. -/
theorem parseTerraform_one_line :
    ∃ bl, parseTerraform "main.tf" (utf8 "role \x7b x = 1 \x7d") = .ok bl ∧
      (bl.map fun b => (b.openAt, b.attrs.map TfAttr.lineStart)) = [(5, [0])] ∧
      ¬ WellSpanned (utf8 "role \x7b x = 1 \x7d") bl := by
  have hfields : (parseTerraform "main.tf" (utf8 "role \x7b x = 1 \x7d")).toOption.map
      (List.map fun b => (b.openAt, b.attrs.map TfAttr.lineStart)) = some [(5, [0])] := by
    decide +kernel
  cases hparse : parseTerraform "main.tf" (utf8 "role \x7b x = 1 \x7d") with
  | error e =>
      rw [hparse] at hfields
      cases hfields
  | ok bl =>
      rw [hparse] at hfields
      have hbl : (bl.map fun b => (b.openAt, b.attrs.map TfAttr.lineStart)) = [(5, [0])] :=
        Option.some.inj hfields
      refine ⟨bl, rfl, hbl, fun h => ?_⟩
      obtain ⟨b, rfl, hb⟩ := map_eq_singleton_iff.1 hbl
      obtain ⟨hopen, hattrs⟩ := Prod.mk.inj hb
      obtain ⟨a, ha, hstart⟩ := map_eq_singleton_iff.1 hattrs
      obtain ⟨_, hinside, -, -⟩ := h.blocks b (mem_singleton_self b)
      have hlt := (hinside a (by simp [ha])).1
      omega

end

end AuthSec
