/-
Words in a text: where they occur, and replacing them by a marker.

`replaceAll` goes from left to right and replaces the occurrences that do not overlap one it
replaced already, as the function of that name does in most libraries. It is harder to reason about
than it looks, because the marker is made of the same letters as the text: a second word may be
found in a marker, or half in a marker and half beside it.

So the replacing is done twice here. The tokens of a masked text are letters and marks, and masking
is `replaceAll` with a mark, which is no letter. What masking does is then plain: nothing that
occurs afterwards is new, the word is gone, and a text can be masked in two halves if the word does
not lie across the cut. `spell_replaceAll` carries this back to letters for a word that does not
overlap the marker.

The last section has the spaces that trimming takes off a text.
-/
import Mathlib.Data.List.Infix

set_option autoImplicit false

namespace Wefty.Substrings

universe u

variable {α : Type u}

/-! ## 1. Occurrences -/

/-- The word occurs in the text at a position. -/
def Occurs (word text : List α) (i : ℕ) : Prop := word <+: text.drop i

/-- The word lies across a position of the text. -/
def Straddles (word text : List α) (cut : ℕ) : Prop :=
  ∃ i, i < cut ∧ cut < i + word.length ∧ Occurs word text i

instance [DecidableEq α] (word text : List α) (i : ℕ) : Decidable (Occurs word text i) :=
  inferInstanceAs (Decidable (word <+: text.drop i))

section
variable {word text left right : List α} {i : ℕ}

theorem Occurs.add_length_le (h : Occurs word text i) (hne : word ≠ []) :
    i + word.length ≤ text.length := by
  have hlen := h.length_le
  rw [List.length_drop] at hlen
  have hpos := List.length_pos_iff.mpr hne
  omega

theorem occurs_append_left (h : Occurs word (left ++ right) i)
    (hend : i + word.length ≤ left.length) : Occurs word left i := by
  unfold Occurs at h ⊢
  rw [List.drop_append_of_le_length (by omega)] at h
  refine List.prefix_of_prefix_length_le h (List.prefix_append _ _) ?_
  rw [List.length_drop]
  omega

theorem occurs_append_right (hstart : left.length ≤ i) :
    Occurs word (left ++ right) i ↔ Occurs word right (i - left.length) := by
  unfold Occurs
  rw [List.drop_append, List.drop_eq_nil_of_le hstart, List.nil_append]

end

/-! ## 2. Tokens -/

/-- The letters of a text, as tokens. -/
def letters (word : List α) : List (Option α) := word.map some

section
variable {word : List α}

theorem letters_append (v w : List α) : letters (v ++ w) = letters v ++ letters w :=
  List.map_append

theorem letters_ne_nil (h : word ≠ []) : letters word ≠ [] := by
  rwa [letters, ne_eq, List.map_eq_nil_iff]

theorem prefix_of_letters_prefix {v w : List α} (h : letters v <+: letters w) : v <+: w := by
  obtain ⟨tail, htail⟩ := h
  obtain ⟨v', rest, hw, hv, -⟩ := List.map_eq_append_iff.mp htail.symm
  have hsame : v' = v := List.map_injective_iff.mpr (fun _ _ => Option.some.inj) hv
  rw [hw, hsame]
  exact List.prefix_append _ _

theorem straddles_of_letters {text : List α} {cut : ℕ}
    (h : Straddles (letters word) (letters text) cut) : Straddles word text cut := by
  obtain ⟨i, hstart, hend, hocc⟩ := h
  rw [letters, List.length_map] at hend
  refine ⟨i, hstart, hend, prefix_of_letters_prefix ?_⟩
  have hdrop : letters (text.drop i) = (letters text).drop i := List.map_drop
  rw [hdrop]
  exact hocc

theorem none_notMem_letters (word : List α) : none ∉ letters word := by
  simp [letters]

end

/-! ## 3. Searching -/

section
variable [DecidableEq α]

/-- The position of the first occurrence. -/
def index (text word : List α) : Option ℕ :=
  if word <+: text then some 0
  else
    match text with
    | [] => none
    | _ :: rest => (index rest word).map (· + 1)

/-- **The search misses nothing** before the position it returns, -/
theorem index_le_of_occurs {text word : List α} {i : ℕ} (h : Occurs word text i)
    (hi : i ≤ text.length) : ∃ j, index text word = some j ∧ j ≤ i := by
  induction text generalizing i with
  | nil =>
    have hzero : i = 0 := Nat.le_zero.mp hi
    subst hzero
    have hp : word <+: [] := h
    exact ⟨0, by rw [index, if_pos hp], le_refl 0⟩
  | cons x rest ih =>
    by_cases hp : word <+: x :: rest
    · exact ⟨0, by rw [index, if_pos hp], Nat.zero_le i⟩
    obtain ⟨i, rfl⟩ : ∃ k, i = k + 1 := by
      refine Nat.exists_eq_succ_of_ne_zero fun hzero => hp ?_
      rw [hzero] at h
      exact h
    obtain ⟨j, hj, hle⟩ := ih (i := i) h (Nat.le_of_succ_le_succ hi)
    refine ⟨j + 1, ?_, Nat.succ_le_succ hle⟩
    rw [index, if_neg hp]
    simp only [hj, Option.map_some]

/-! ## 4. Replacing -/

/-- Every occurrence of a word that is not empty, from left to right, replaced by another word. -/
def replaceAll (text old new : List α) : List α :=
  match text with
  | [] => []
  | x :: rest =>
    if old ≠ [] ∧ old <+: x :: rest then new ++ replaceAll ((x :: rest).drop old.length) old new
    else x :: replaceAll rest old new
termination_by text.length
decreasing_by
  · rename_i hmatch
    have hpos := List.length_pos_iff.mpr hmatch.1
    simp only [List.length_drop, List.length_cons]
    omega
  · simp

section
variable {text old new left right : List α}

theorem replaceAll_nil : replaceAll [] old new = [] := by
  rw [replaceAll]

theorem replaceAll_append (hne : old ≠ []) (rest : List α) :
    replaceAll (old ++ rest) old new = new ++ replaceAll rest old new := by
  cases hold : old with
  | nil => exact absurd hold hne
  | cons x tail =>
    have hmatch : x :: tail <+: x :: (tail ++ rest) := List.prefix_append (x :: tail) rest
    rw [List.cons_append, replaceAll, if_pos ⟨List.cons_ne_nil x tail, hmatch⟩,
      ← List.cons_append, List.drop_left]

theorem replaceAll_cons {x : α} {rest : List α} (h : ¬ old <+: x :: rest) :
    replaceAll (x :: rest) old new = x :: replaceAll rest old new := by
  rw [replaceAll, if_neg fun hmatch => h hmatch.2]

theorem replaceAll_ne_nil (htext : text ≠ []) (hnew : new ≠ []) : replaceAll text old new ≠ [] := by
  cases text with
  | nil => exact absurd rfl htext
  | cons x rest =>
    rw [replaceAll]
    split
    · exact List.append_ne_nil_of_left_ne_nil hnew _
    · exact List.cons_ne_nil _ _

/-- The induction along `replaceAll`: the text is empty, begins with the word, or does not. -/
theorem replaceAll_induction (old : List α) {P : List α → Prop} (hne : old ≠ []) (hnil : P [])
    (hmatch : ∀ rest, P rest → P (old ++ rest))
    (hskip : ∀ x rest, ¬ old <+: x :: rest → P rest → P (x :: rest)) (text : List α) : P text := by
  induction hlen : text.length using Nat.strong_induction_on generalizing text with
  | _ n ih =>
    cases text with
    | nil => exact hnil
    | cons x rest =>
      by_cases hp : old <+: x :: rest
      · obtain ⟨tail, htail⟩ := hp
        rw [← htail]
        refine hmatch tail (ih tail.length ?_ tail rfl)
        have hpos := List.length_pos_iff.mpr hne
        rw [← hlen, ← htail, List.length_append]
        omega
      · refine hskip x rest hp (ih rest.length ?_ rest rfl)
        rw [← hlen, List.length_cons]
        omega

/-- **A text is replaced in two halves** if the word does not lie across the cut. -/
theorem replaceAll_append_of_not_straddles (hne : old ≠ [])
    (h : ¬ Straddles old (left ++ right) left.length) :
    replaceAll (left ++ right) old new = replaceAll left old new ++ replaceAll right old new := by
  induction left using replaceAll_induction old hne with
  | hnil => rw [List.nil_append, replaceAll_nil, List.nil_append]
  | hmatch rest ih =>
    rw [List.append_assoc, replaceAll_append hne, replaceAll_append hne, ih, List.append_assoc]
    rintro ⟨i, hlt, hend, hocc⟩
    refine h ⟨i + old.length, ?_, ?_, ?_⟩
    · rw [List.length_append]
      omega
    · rw [List.length_append]
      omega
    · rw [List.append_assoc, occurs_append_right (by omega), Nat.add_sub_cancel]
      exact hocc
  | hskip x rest hskip ih =>
    -- The word does not begin here in the whole text either: it would lie across the cut.
    have hskip' : ¬ old <+: x :: (rest ++ right) := by
      intro hp
      by_cases hlong : old.length ≤ (x :: rest).length
      · exact hskip (List.prefix_of_prefix_length_le hp
          (List.prefix_append (x :: rest) right) hlong)
      · refine h ⟨0, Nat.succ_pos _, ?_, hp⟩
        omega
    rw [List.cons_append, replaceAll_cons hskip', replaceAll_cons hskip, ih, List.cons_append]
    rintro ⟨i, hlt, hend, hocc⟩
    refine h ⟨i + 1, Nat.succ_lt_succ hlt, ?_, hocc⟩
    rw [List.length_cons]
    omega

end

/-! ## 5. Masking -/

/-- A text with every occurrence of the word replaced by a mark. -/
def mask (word : List α) (tokens : List (Option α)) : List (Option α) :=
  replaceAll tokens (letters word) [none]

section
variable {word other : List α} {tokens left right : List (Option α)}

theorem mask_nil : mask word [] = [] := replaceAll_nil

theorem mask_match (hne : word ≠ []) (rest : List (Option α)) :
    mask word (letters word ++ rest) = none :: mask word rest :=
  replaceAll_append (letters_ne_nil hne) rest

theorem mask_skip {x : Option α} {rest : List (Option α)} (h : ¬ letters word <+: x :: rest) :
    mask word (x :: rest) = x :: mask word rest :=
  replaceAll_cons h

/-- A masked text that is cut in two is the text cut in two, each half masked. -/
theorem exists_of_mask_eq_append (hne : word ≠ []) (h : mask word tokens = left ++ right) :
    ∃ l r, tokens = l ++ r ∧ mask word l = left ∧ mask word r = right := by
  induction tokens using replaceAll_induction (letters word) (letters_ne_nil hne)
    generalizing left with
  | hnil =>
    rw [mask_nil] at h
    obtain ⟨rfl, rfl⟩ := List.nil_eq_append_iff.mp h
    exact ⟨[], [], rfl, mask_nil, mask_nil⟩
  | hmatch rest ih =>
    rw [mask_match hne] at h
    rcases List.cons_eq_append_iff.mp h with ⟨rfl, rfl⟩ | ⟨left, rfl, hrest⟩
    · exact ⟨[], _, rfl, mask_nil, mask_match hne rest⟩
    · obtain ⟨l, r, rfl, rfl, rfl⟩ := ih hrest
      exact ⟨letters word ++ l, r, (List.append_assoc _ _ _).symm, mask_match hne l, rfl⟩
  | hskip x rest hskip ih =>
    rw [mask_skip hskip] at h
    rcases List.cons_eq_append_iff.mp h with ⟨rfl, rfl⟩ | ⟨left, rfl, hrest⟩
    · exact ⟨[], _, rfl, mask_nil, mask_skip hskip⟩
    · obtain ⟨l, r, rfl, rfl, rfl⟩ := ih hrest
      refine ⟨x :: l, r, rfl, mask_skip fun hp => hskip ?_, rfl⟩
      exact hp.trans (List.prefix_append (x :: l) r)

/-- Where no mark is left there was nothing to mask. -/
theorem eq_of_mask_eq_letters (hne : word ≠ []) (h : mask word tokens = letters other) :
    tokens = letters other := by
  have hmarks := none_notMem_letters other
  rw [← h] at hmarks ⊢
  clear h
  induction tokens using replaceAll_induction (letters word) (letters_ne_nil hne) with
  | hnil => exact mask_nil.symm
  | hmatch rest _ =>
    rw [mask_match hne] at hmarks
    exact absurd List.mem_cons_self hmarks
  | hskip x rest hskip ih =>
    rw [mask_skip hskip] at hmarks ⊢
    rw [← ih fun hmem => hmarks (List.mem_cons_of_mem x hmem)]

theorem prefix_of_prefix_mask (hne : word ≠ []) (h : letters other <+: mask word tokens) :
    letters other <+: tokens := by
  obtain ⟨right, hright⟩ := h
  obtain ⟨l, r, rfl, hl, -⟩ := exists_of_mask_eq_append hne hright.symm
  rw [eq_of_mask_eq_letters hne hl]
  exact List.prefix_append _ r

theorem suffix_of_suffix_mask (hne : word ≠ []) (h : letters other <:+ mask word tokens) :
    letters other <:+ tokens := by
  obtain ⟨left, hleft⟩ := h
  obtain ⟨l, r, rfl, -, hr⟩ := exists_of_mask_eq_append hne hleft.symm
  rw [eq_of_mask_eq_letters hne hr]
  exact List.suffix_append l _

/-- **Masking makes no occurrence.** -/
theorem infix_of_infix_mask (hne : word ≠ []) (h : letters other <:+: mask word tokens) :
    letters other <:+: tokens := by
  obtain ⟨left, right, hmid⟩ := h
  obtain ⟨l, r, rfl, hl, -⟩ := exists_of_mask_eq_append hne hmid.symm
  exact (suffix_of_suffix_mask hne ⟨left, hl.symm⟩).isInfix.trans (List.prefix_append l r).isInfix

/-- **The word is gone.** -/
theorem not_infix_mask (hne : word ≠ []) (tokens : List (Option α)) :
    ¬ letters word <:+: mask word tokens := by
  rintro ⟨left, right, hmid⟩
  obtain ⟨l, r, -, hl, -⟩ := exists_of_mask_eq_append hne hmid.symm
  obtain ⟨before, mid, -, -, hword⟩ := exists_of_mask_eq_append hne hl
  have hmark := mask_match hne []
  rw [List.append_nil, ← eq_of_mask_eq_letters hne hword, hword] at hmark
  exact none_notMem_letters word (hmark ▸ List.mem_cons_self)

/-- **A word that does not lie across a cut does not come to lie across it.** -/
theorem not_straddles_mask (hne : word ≠ [])
    (h : ¬ Straddles (letters other) (left ++ right) left.length) :
    ¬ Straddles (letters other) (mask word left ++ mask word right) (mask word left).length := by
  rintro ⟨i, hstart, hend, hocc⟩
  -- Cut the word where the text is cut: its two parts are an end and a beginning.
  let k := (mask word left).length - i
  have hword : letters other = letters (other.take k) ++ letters (other.drop k) := by
    rw [← letters_append, List.take_append_drop]
  have hlen : (letters other).length = other.length := List.length_map _
  have htake : (letters (other.take k)).length = k := by
    rw [letters, List.length_map, List.length_take]
    omega
  have hdrop : ((mask word left).drop i).length = k := List.length_drop
  unfold Occurs at hocc
  rw [List.drop_append_of_le_length (by omega), hword] at hocc
  obtain ⟨tail, htail⟩ := hocc
  rw [List.append_assoc] at htail
  obtain ⟨hleft, hright⟩ := List.append_inj htail (htake.trans hdrop.symm)
  have hsuf : letters (other.take k) <:+ left := by
    refine suffix_of_suffix_mask hne ?_
    rw [hleft]
    exact List.drop_suffix i _
  have hpre : letters (other.drop k) <+: right :=
    prefix_of_prefix_mask hne ⟨tail, hright⟩
  obtain ⟨before, hbef⟩ := hsuf
  refine h ⟨before.length, ?_, ?_, ?_⟩
  · rw [← hbef, List.length_append]
    omega
  · rw [← hbef, List.length_append, htake, hlen]
    omega
  · unfold Occurs
    rw [← hbef, List.append_assoc, List.drop_left, hword]
    exact List.prefix_append_right_inj _ |>.mpr hpre

end

end

/-! ## 6. Several words -/

section
variable [DecidableEq α] {words : List (List α)} {tokens left right : List (Option α)}

/-- The text with each of the words masked, one after another. -/
def maskAll (words : List (List α)) (tokens : List (Option α)) : List (Option α) :=
  words.foldl (fun masked word => mask word masked) tokens

/-- A text is masked in two halves if no word lies across the cut: masking one word does not make
another lie across it. -/
theorem maskAll_append (hne : ∀ word ∈ words, word ≠ [])
    (h : ∀ word ∈ words, ¬ Straddles (letters word) (left ++ right) left.length) :
    maskAll words (left ++ right) = maskAll words left ++ maskAll words right := by
  induction words generalizing left right with
  | nil => rfl
  | cons word words ih =>
    have hword : word ≠ [] := hne word List.mem_cons_self
    have hhalves : mask word (left ++ right) = mask word left ++ mask word right :=
      replaceAll_append_of_not_straddles (letters_ne_nil hword) (h word List.mem_cons_self)
    show maskAll words (mask word (left ++ right)) = _
    rw [hhalves]
    refine ih (fun other hoth => hne other (List.mem_cons_of_mem word hoth)) ?_
    intro other hoth
    exact not_straddles_mask hword (h other (List.mem_cons_of_mem word hoth))

/-- Masking more words makes no occurrence. -/
theorem infix_of_infix_maskAll (hne : ∀ word ∈ words, word ≠ []) {other : List α}
    (h : letters other <:+: maskAll words tokens) : letters other <:+: tokens := by
  induction words generalizing tokens with
  | nil => exact h
  | cons word words ih =>
    have hmasked := ih (fun v hv => hne v (List.mem_cons_of_mem word hv)) h
    exact infix_of_infix_mask (hne word List.mem_cons_self) hmasked

/-- **Every word is gone.** -/
theorem not_infix_maskAll (hne : ∀ word ∈ words, word ≠ []) :
    ∀ word ∈ words, ¬ letters word <:+: maskAll words tokens := by
  induction words generalizing tokens with
  | nil =>
    intro word hword
    cases hword
  | cons head words ih =>
    have hrest : ∀ word ∈ words, word ≠ [] := fun v hv => hne v (List.mem_cons_of_mem head hv)
    intro word hword
    rcases List.mem_cons.mp hword with rfl | hmem
    · intro h
      have hmasked := infix_of_infix_maskAll hrest h
      exact not_infix_mask (hne word List.mem_cons_self) tokens hmasked
    · exact ih hrest word hmem

end

/-! ## 7. Spelling the marks out -/

/-- Neither of the two contains the other, and no part of one that is neither empty nor all of it
begins it and ends the other. -/
structure Apart (word marker : List α) : Prop where
  notInside : ¬ word <:+: marker
  notAround : ¬ marker <:+: word
  notAfter : ∀ v, v ≠ [] → v ≠ word → v <+: word → ¬ v <:+ marker
  notBefore : ∀ v, v ≠ [] → v ≠ marker → v <+: marker → ¬ v <:+ word

theorem apart_of_disjoint {word marker : List α} (hword : word ≠ []) (hmarker : marker ≠ [])
    (h : ∀ letter ∈ word, letter ∉ marker) : Apart word marker := by
  have hcommon : ∀ v : List α, v ≠ [] → (∀ letter ∈ v, letter ∈ word) →
      (∀ letter ∈ v, letter ∈ marker) → False := by
    intro v hv hin hin'
    obtain ⟨letter, rest, rfl⟩ := List.exists_cons_of_ne_nil hv
    exact h letter (hin letter List.mem_cons_self) (hin' letter List.mem_cons_self)
  refine ⟨fun hp => ?_, fun hp => ?_, fun v hv _ hp hs => ?_, fun v hv _ hp hs => ?_⟩
  · exact hcommon word hword (fun _ hmem => hmem) fun _ hmem => hp.subset hmem
  · exact hcommon marker hmarker (fun _ hmem => hp.subset hmem) fun _ hmem => hmem
  · exact hcommon v hv (fun _ hmem => hp.subset hmem) fun _ hmem => hs.subset hmem
  · exact hcommon v hv (fun _ hmem => hs.subset hmem) fun _ hmem => hp.subset hmem

/-- The text with the marker written out for each mark. -/
def spell (marker : List α) (tokens : List (Option α)) : List α :=
  tokens.flatMap fun
    | some letter => [letter]
    | none => marker

section
variable {word marker : List α} {tokens : List (Option α)}

theorem spell_append (left right : List (Option α)) :
    spell marker (left ++ right) = spell marker left ++ spell marker right :=
  List.flatMap_append

theorem spell_letters (text : List α) : spell marker (letters text) = text := by
  induction text with
  | nil => rfl
  | cons b rest ih => exact congrArg (b :: ·) ih

/-- The end of a word does not begin where a marker does. -/
theorem Apart.not_prefix_marker (h : Apart word marker) {v : List α} (hv : v ≠ [])
    (hsuf : v <:+ word) (rest : List α) : ¬ v <+: marker ++ rest := by
  intro hp
  rcases List.prefix_or_prefix_of_prefix hp (List.prefix_append marker rest) with hle | hge
  · by_cases heq : v = marker
    · rw [heq] at hsuf
      exact h.notAround hsuf.isInfix
    · exact h.notBefore v hv heq hle hsuf
  · exact h.notAround (hge.isInfix.trans hsuf.isInfix)

/-- A word does not begin inside a marker. -/
theorem Apart.not_prefix_inside (h : Apart word marker) {u : List α} (hu : u ≠ [])
    (hsuf : u <:+ marker) (rest : List α) : ¬ word <+: u ++ rest := by
  intro hp
  rcases List.prefix_or_prefix_of_prefix hp (List.prefix_append u rest) with hle | hge
  · exact h.notInside (hle.isInfix.trans hsuf.isInfix)
  · by_cases heq : u = word
    · rw [heq] at hsuf
      exact h.notInside hsuf.isInfix
    · exact h.notAfter u hu heq hge hsuf

/-- What the end of a word begins in the spelled text, it begins in the tokens. -/
theorem Apart.prefix_of_prefix_spell (h : Apart word marker) {v : List α} (hsuf : v <:+ word)
    (hp : v <+: spell marker tokens) : letters v <+: tokens := by
  induction v generalizing tokens with
  | nil => exact List.nil_prefix
  | cons b v ih =>
    cases tokens with
    | nil => exact absurd (List.prefix_nil.mp hp) (List.cons_ne_nil b v)
    | cons token rest =>
      cases token with
      | none => exact absurd hp (h.not_prefix_marker (List.cons_ne_nil b v) hsuf _)
      | some letter =>
        obtain ⟨hhead, htail⟩ := List.cons_prefix_cons.mp hp
        have hrest := ih ((List.suffix_cons b v).trans hsuf) htail
        exact List.cons_prefix_cons.mpr ⟨congrArg some hhead, hrest⟩

/-- Nor does a word begin inside a marker and go on after it. -/
theorem Apart.infix_of_infix_marker (h : Apart word marker) {u rest : List α}
    (hsuf : u <:+ marker) (hin : word <:+: u ++ rest) : word <:+: rest := by
  induction u with
  | nil => exact hin
  | cons c u ih =>
    rcases List.infix_cons_iff.mp hin with hpre | hin
    · exact absurd hpre (h.not_prefix_inside (List.cons_ne_nil c u) hsuf rest)
    · exact ih ((List.suffix_cons c u).trans hsuf) hin

/-- **What the spelled text holds, the tokens hold.** -/
theorem Apart.infix_of_infix_spell (h : Apart word marker) (hne : word ≠ [])
    (hin : word <:+: spell marker tokens) : letters word <:+: tokens := by
  induction tokens with
  | nil => exact absurd (List.infix_nil.mp hin) hne
  | cons token rest ih =>
    cases token with
    | none =>
      have hrest := h.infix_of_infix_marker (List.suffix_refl marker) hin
      exact (ih hrest).trans (List.suffix_cons none rest).isInfix
    | some letter =>
      rcases List.infix_cons_iff.mp (show word <:+: letter :: spell marker rest from hin) with
        hpre | hin
      · have htokens : letters word <+: some letter :: rest :=
          h.prefix_of_prefix_spell (List.suffix_refl word) hpre
        exact htokens.isInfix
      · exact (ih hin).trans (List.suffix_cons (some letter) rest).isInfix

section
variable [DecidableEq α]

/-- Nothing of a marker is replaced. -/
theorem Apart.replaceAll_marker (h : Apart word marker) {u : List α} (hsuf : u <:+ marker)
    (rest new : List α) : replaceAll (u ++ rest) word new = u ++ replaceAll rest word new := by
  induction u with
  | nil => rfl
  | cons c u ih =>
    have hskip : ¬ word <+: c :: (u ++ rest) :=
      h.not_prefix_inside (List.cons_ne_nil c u) hsuf rest
    rw [List.cons_append, replaceAll_cons hskip, ih ((List.suffix_cons c u).trans hsuf),
      List.cons_append]

/-- **Replacing is masking, spelled out**, for a word that does not overlap the marker. -/
theorem Apart.spell_mask (h : Apart word marker) (hne : word ≠ []) (tokens : List (Option α)) :
    replaceAll (spell marker tokens) word marker = spell marker (mask word tokens) := by
  induction tokens using replaceAll_induction (letters word) (letters_ne_nil hne) with
  | hnil => rw [mask_nil, spell, List.flatMap_nil, replaceAll_nil]
  | hmatch rest ih =>
    rw [mask_match hne, spell_append, spell_letters, replaceAll_append hne, ih]
    rfl
  | hskip token rest hskip ih =>
    rw [mask_skip hskip]
    cases token with
    | none =>
      show replaceAll (marker ++ spell marker rest) word marker = _
      rw [h.replaceAll_marker (List.suffix_refl marker), ih]
      rfl
    | some letter =>
      have hskip' : ¬ word <+: letter :: spell marker rest :=
        fun hp => hskip (h.prefix_of_prefix_spell (List.suffix_refl word) hp)
      show replaceAll (letter :: spell marker rest) word marker = _
      rw [replaceAll_cons hskip', ih]
      rfl

/-- Each word replaced by the marker, one after another. -/
def replaceEach (words : List (List α)) (marker text : List α) : List α :=
  words.foldl (fun replaced word => replaceAll replaced word marker) text

theorem replaceEach_nil (words : List (List α)) (marker : List α) :
    replaceEach words marker [] = [] := by
  induction words with
  | nil => rfl
  | cons word words ih =>
    show replaceEach words marker (replaceAll [] word marker) = []
    rw [replaceAll_nil, ih]

variable {words : List (List α)} (hne : ∀ word ∈ words, word ≠ [])
variable (h : ∀ word ∈ words, Apart word marker)
include hne h

theorem spell_maskAll (tokens : List (Option α)) :
    replaceEach words marker (spell marker tokens) = spell marker (maskAll words tokens) := by
  induction words generalizing tokens with
  | nil => rfl
  | cons word words ih =>
    show replaceEach words marker (replaceAll (spell marker tokens) word marker) = _
    rw [(h word List.mem_cons_self).spell_mask (hne word List.mem_cons_self)]
    exact ih (fun v hv => hne v (List.mem_cons_of_mem word hv))
      (fun v hv => h v (List.mem_cons_of_mem word hv)) _

theorem replaceEach_eq_spell (text : List α) :
    replaceEach words marker text = spell marker (maskAll words (letters text)) := by
  rw [← spell_maskAll hne h, spell_letters]

/-- **Nothing is left of any word.** -/
theorem not_infix_replaceEach (text : List α) :
    ∀ word ∈ words, ¬ word <:+: replaceEach words marker text := by
  intro word hword hin
  rw [replaceEach_eq_spell hne h] at hin
  have htokens := (h word hword).infix_of_infix_spell (hne word hword) hin
  exact not_infix_maskAll hne word hword htokens

/-- **A text is replaced in two halves** if no word lies across the cut. -/
theorem replaceEach_append {left right : List α}
    (hcut : ∀ word ∈ words, ¬ Straddles word (left ++ right) left.length) :
    replaceEach words marker (left ++ right) =
      replaceEach words marker left ++ replaceEach words marker right := by
  rw [replaceEach_eq_spell hne h, replaceEach_eq_spell hne h, replaceEach_eq_spell hne h,
    letters_append, maskAll_append hne, spell_append]
  intro word hword hstraddles
  refine hcut word hword (straddles_of_letters ?_)
  rw [letters_append]
  rwa [letters, letters, List.length_map] at hstraddles

end

end

/-! ## 8. A text in pieces -/

section
variable {words pieces : List (List α)}

/-- None of the words lies across the end of a piece. -/
def Whole (words : List (List α)) : List (List α) → Prop
  | [] => True
  | piece :: rest =>
    (∀ word ∈ words, ¬ Straddles word (piece ++ rest.flatten) piece.length) ∧ Whole words rest

/-- The stretch of the text that begins at `i` is inside one piece. -/
def Inside (pieces : List (List α)) (i length : ℕ) : Prop :=
  ∃ before piece after, pieces = before ++ piece :: after ∧ before.flatten.length ≤ i ∧
    i + length ≤ before.flatten.length + piece.length

/-- **Every occurrence is inside one piece.** -/
theorem Whole.inside (h : Whole words pieces) {word : List α} (hword : word ∈ words)
    (hne : word ≠ []) {i : ℕ} (hocc : Occurs word pieces.flatten i) :
    Inside pieces i word.length := by
  induction pieces generalizing i with
  | nil =>
    have hend := hocc.add_length_le hne
    have hpos := List.length_pos_iff.mpr hne
    rw [List.flatten_nil, List.length_nil] at hend
    omega
  | cons piece rest ih =>
    rw [List.flatten_cons] at hocc
    by_cases hend : i + word.length ≤ piece.length
    · exact ⟨[], piece, rest, rfl, Nat.zero_le i, by simpa using hend⟩
    by_cases hstart : i < piece.length
    · exact absurd ⟨i, hstart, by omega, hocc⟩ (h.1 word hword)
    rw [occurs_append_right (by omega)] at hocc
    obtain ⟨before, inner, after, hpieces, hbegin, hfinish⟩ := ih h.2 hocc
    refine ⟨piece :: before, inner, after, by rw [hpieces]; rfl, ?_, ?_⟩
    · rw [List.flatten_cons, List.length_append]
      omega
    · rw [List.flatten_cons, List.length_append]
      omega

/-- **The pieces replaced one by one are the text replaced as a whole.** -/
theorem Whole.replaceEach_flatten [DecidableEq α] {marker : List α} (h : Whole words pieces)
    (hne : ∀ word ∈ words, word ≠ []) (hapart : ∀ word ∈ words, Apart word marker) :
    (pieces.map (replaceEach words marker)).flatten = replaceEach words marker pieces.flatten := by
  induction pieces with
  | nil =>
    exact (replaceEach_nil words marker).symm
  | cons piece rest ih =>
    rw [List.map_cons, List.flatten_cons, List.flatten_cons, ih h.2,
      replaceEach_append hne hapart h.1]

end

/-! ## 9. Trimming -/

/-- `unicode.IsSpace`, over Latin-1 and the separators above it. -/
def isSpace (c : Char) : Bool :=
  let n := c.toNat
  (9 ≤ n && n ≤ 13) || n = 32 || n = 0x85 || n = 0xA0 || n = 0x1680 ||
    (0x2000 ≤ n && n ≤ 0x200a) || n = 0x2028 || n = 0x2029 || n = 0x202f || n = 0x205f ||
    n = 0x3000

/-- `strings.TrimSpace`. -/
def trimSpace (s : String) : String :=
  String.ofList ((s.toList.dropWhile isSpace).reverse.dropWhile isSpace).reverse

end Wefty.Substrings
