import Mathlib

/-! Texts that are put together from parts: when the parts can be read back. -/
namespace Texts

section Products
variable {α β γ δ : Type} {xs : List α} {ys : List β}

/-- Images under functions that agree on what they tell apart. -/
theorem nodup_map_congr {f : α → γ} {g : α → δ}
    (h : ∀ x ∈ xs, ∀ x' ∈ xs, f x = f x' ↔ g x = g x') : (xs.map f).Nodup ↔ (xs.map g).Nodup := by
  unfold List.Nodup
  rw [List.pairwise_map, List.pairwise_map]
  constructor <;> intro hpairs
  · exact hpairs.imp_of_mem fun hx hx' hne heq => hne ((h _ hx _ hx').mpr heq)
  · exact hpairs.imp_of_mem fun hx hx' hne heq => hne ((h _ hx _ hx').mp heq)

theorem nodup_map_iff {f : α → γ} :
    (xs.map f).Nodup ↔ xs.Nodup ∧ ∀ x ∈ xs, ∀ x' ∈ xs, f x = f x' → x = x' := by
  constructor
  · exact fun h => ⟨h.of_map, fun x hx x' hx' heq => List.inj_on_of_nodup_map h hx hx' heq⟩
  · exact fun h => (List.nodup_map_iff_inj_on h.1).mpr fun x hx x' hx' heq => h.2 x hx x' hx' heq

theorem map_product (f : α → γ) (g : β → δ) :
    (xs ×ˢ ys).map (Prod.map f g) = xs.map f ×ˢ ys.map g := by
  simp [SProd.sprod, List.product, List.flatMap_map, List.map_flatMap, Function.comp_def]

theorem product_eq_nil_iff : xs ×ˢ ys = [] ↔ xs = [] ∨ ys = [] := by
  rw [← List.length_eq_zero_iff, List.length_product, Nat.mul_eq_zero, List.length_eq_zero_iff,
    List.length_eq_zero_iff]

/-- A product repeats nothing exactly if its factors do not. -/
theorem nodup_product_iff (hxs : xs ≠ []) (hys : ys ≠ []) :
    (xs ×ˢ ys).Nodup ↔ xs.Nodup ∧ ys.Nodup := by
  constructor
  · intro h
    obtain ⟨x, hx⟩ := List.exists_mem_of_ne_nil xs hxs
    obtain ⟨y, hy⟩ := List.exists_mem_of_ne_nil ys hys
    obtain ⟨hinner, houter⟩ := List.nodup_flatMap.mp h
    refine ⟨?_, List.Nodup.of_map _ (hinner x hx)⟩
    apply houter.imp
    rintro a b hdisjoint rfl
    have hmem : (a, y) ∈ ys.map (Prod.mk a) := List.mem_map_of_mem hy
    exact hdisjoint hmem hmem
  · exact fun h => h.1.product h.2

/-- A function of pairs that tells apart what two functions of their parts do. -/
theorem nodup_map_product_iff {ε : Type} {key : α × β → ε} {f : α → γ} {g : β → δ} (hxs : xs ≠ [])
    (hys : ys ≠ []) (hkey : ∀ p p', key p = key p' ↔ f p.1 = f p'.1 ∧ g p.2 = g p'.2) :
    ((xs ×ˢ ys).map key).Nodup ↔ (xs.map f).Nodup ∧ (ys.map g).Nodup := by
  rw [← nodup_product_iff (by simpa) (by simpa), ← map_product]
  apply nodup_map_congr
  intro p _ p' _
  rw [hkey, Prod.map_apply', Prod.map_apply', Prod.mk.injEq]

/-- All values of a list are the same. -/
def Alike (xs : List α) : Prop := ∀ x ∈ xs, ∀ x' ∈ xs, x = x'

theorem alike_map_iff {f : α → γ} (hf : Function.Injective f) : Alike (xs.map f) ↔ Alike xs := by
  unfold Alike
  simp only [List.forall_mem_map, hf.eq_iff]

theorem alike_product_iff (hxs : xs ≠ []) (hys : ys ≠ []) :
    Alike (xs ×ˢ ys) ↔ Alike xs ∧ Alike ys := by
  obtain ⟨x, hx⟩ := List.exists_mem_of_ne_nil xs hxs
  obtain ⟨y, hy⟩ := List.exists_mem_of_ne_nil ys hys
  constructor
  · intro h
    constructor
    · intro a ha a' ha'
      have heq := h (a, y) (List.mem_product.mpr ⟨ha, hy⟩) (a', y) (List.mem_product.mpr ⟨ha', hy⟩)
      exact congrArg Prod.fst heq
    · intro b hb b' hb'
      have heq := h (x, b) (List.mem_product.mpr ⟨hx, hb⟩) (x, b') (List.mem_product.mpr ⟨hx, hb'⟩)
      exact congrArg Prod.snd heq
  · rintro ⟨hfst, hsnd⟩ p hp p' hp'
    have hmem := List.mem_product.mp hp
    have hmem' := List.mem_product.mp hp'
    exact Prod.ext (hfst _ hmem.1 _ hmem'.1) (hsnd _ hmem.2 _ hmem'.2)

/-- The first parts of some pairs determine them exactly if the second parts are all the same. -/
theorem determined_by_fst_iff (hxs : xs ≠ []) :
    (∀ p ∈ xs ×ˢ ys, ∀ p' ∈ xs ×ˢ ys, p.1 = p'.1 → p = p') ↔ Alike ys := by
  obtain ⟨x, hx⟩ := List.exists_mem_of_ne_nil xs hxs
  constructor
  · intro h b hb b' hb'
    have heq := h (x, b) (List.mem_product.mpr ⟨hx, hb⟩) (x, b') (List.mem_product.mpr ⟨hx, hb'⟩) rfl
    exact congrArg Prod.snd heq
  · intro h p hp p' hp' heq
    exact Prod.ext heq (h _ (List.mem_product.mp hp).2 _ (List.mem_product.mp hp').2)

theorem determined_by_snd_iff (hys : ys ≠ []) :
    (∀ p ∈ xs ×ˢ ys, ∀ p' ∈ xs ×ˢ ys, p.2 = p'.2 → p = p') ↔ Alike xs := by
  obtain ⟨y, hy⟩ := List.exists_mem_of_ne_nil ys hys
  constructor
  · intro h a ha a' ha'
    have heq := h (a, y) (List.mem_product.mpr ⟨ha, hy⟩) (a', y) (List.mem_product.mpr ⟨ha', hy⟩) rfl
    exact congrArg Prod.fst heq
  · intro h p hp p' hp' heq
    exact Prod.ext (h _ (List.mem_product.mp hp).1 _ (List.mem_product.mp hp').1) heq

end Products

section Appends
variable {s s' t t' : String}

theorem append_right_cancel (h : s ++ t = s' ++ t) : s = s' := by
  rw [← String.toList_inj] at h ⊢
  simpa using h

theorem append_left_cancel (h : s ++ t = s ++ t') : t = t' := by
  rw [← String.toList_inj] at h ⊢
  simpa using h

/-- A text that is cut in two ways is cut alike, or one head extends the other. -/
theorem cases_of_append (h : s ++ t = s' ++ t') :
    s = s' ∧ t = t' ∨ (∃ text ≠ "", s' = s ++ text ∧ t = text ++ t') ∨
      ∃ text ≠ "", s = s' ++ text ∧ t' = text ++ t := by
  have hlists := congrArg String.toList h
  rw [String.toList_append, String.toList_append, List.append_eq_append_iff] at hlists
  rcases hlists with ⟨text, hs, ht⟩ | ⟨text, hs, ht⟩
  · by_cases hnil : text = []
    · left
      subst hnil
      rw [List.append_nil, String.toList_inj] at hs
      rw [List.nil_append, String.toList_inj] at ht
      exact ⟨hs.symm, ht⟩
    · right; left
      refine ⟨String.ofList text, by simpa using hnil, ?_, ?_⟩
      · rw [← String.toList_inj, hs, String.toList_append, String.toList_ofList]
      · rw [← String.toList_inj, ht, String.toList_append, String.toList_ofList]
  · by_cases hnil : text = []
    · left
      subst hnil
      rw [List.append_nil, String.toList_inj] at hs
      rw [List.nil_append, String.toList_inj] at ht
      exact ⟨hs, ht.symm⟩
    · right; right
      refine ⟨String.ofList text, by simpa using hnil, ?_, ?_⟩
      · rw [← String.toList_inj, hs, String.toList_append, String.toList_ofList]
      · rw [← String.toList_inj, ht, String.toList_append, String.toList_ofList]

end Appends

/-- Two pairs of a head and a tail give one text, which they cut at different places. -/
def Overlap (heads tails : List String) : Prop :=
  ∃ head ∈ heads, ∃ text ≠ "", head ++ text ∈ heads ∧ ∃ tail ∈ tails, text ++ tail ∈ tails

section Overlaps
variable {heads tails : List String}

theorem not_overlap_iff : ¬ Overlap heads tails ↔ ∀ s ∈ heads, ∀ s' ∈ heads, ∀ t ∈ tails,
    ∀ t' ∈ tails, s ++ t = s' ++ t' → s = s' ∧ t = t' := by
  constructor
  · intro hnone s hs s' hs' t ht t' ht' heq
    rcases cases_of_append heq with hsame | ⟨text, hne, rfl, rfl⟩ | ⟨text, hne, rfl, rfl⟩
    · exact hsame
    · exact absurd ⟨s, hs, text, hne, hs', t', ht', ht⟩ hnone
    · exact absurd ⟨s', hs', text, hne, hs, t, ht, ht'⟩ hnone
  · rintro hall ⟨head, hhead, text, hne, hlong, tail, htail, hlonger⟩
    have heq : head ++ (text ++ tail) = head ++ text ++ tail := String.append_assoc.symm
    obtain ⟨-, hsame⟩ := hall _ hhead _ hlong _ hlonger _ htail heq
    have hempty : text ++ tail = "" ++ tail := by rw [hsame, String.empty_append]
    exact hne (append_right_cancel hempty)

/-- Texts of a head and a tail repeat nothing exactly if neither part does and no two overlap. -/
theorem nodup_append_iff {α β : Type} {xs : List α} {ys : List β} (hxs : xs ≠ []) (hys : ys ≠ [])
    (f : α → String) (g : β → String) :
    ((xs ×ˢ ys).map fun p => f p.1 ++ g p.2).Nodup ↔
      (xs.map f).Nodup ∧ (ys.map g).Nodup ∧ ¬ Overlap (xs.map f) (ys.map g) := by
  have hpairs : ((xs ×ˢ ys).map fun p => f p.1 ++ g p.2) =
      (xs.map f ×ˢ ys.map g).map fun p => p.1 ++ p.2 := by
    rw [← map_product, List.map_map]
    rfl
  rw [hpairs, nodup_map_iff, nodup_product_iff (by simpa) (by simpa), not_overlap_iff, and_assoc]
  refine and_congr_right fun _ => and_congr_right fun _ => ?_
  constructor
  · intro hinj s hs s' hs' t ht t' ht' heq
    have hsame := hinj (s, t) (List.mem_product.mpr ⟨hs, ht⟩) (s', t')
      (List.mem_product.mpr ⟨hs', ht'⟩) heq
    exact ⟨congrArg Prod.fst hsame, congrArg Prod.snd hsame⟩
  · rintro hinj ⟨s, t⟩ hst ⟨s', t'⟩ hst' heq
    obtain ⟨hs, ht⟩ := List.mem_product.mp hst
    obtain ⟨hs', ht'⟩ := List.mem_product.mp hst'
    obtain ⟨rfl, rfl⟩ := hinj s hs s' hs' t ht t' ht' heq
    rfl

end Overlaps

/-! Separators. -/
section Separators
variable {s s' t t' sep : String} {c : Char}

theorem cons_append_inj {α : Type} {x : α} {as bs cs ds : List α} (hleft : x ∉ as)
    (hright : x ∉ cs) (h : as ++ x :: bs = cs ++ x :: ds) : as = cs ∧ bs = ds := by
  have hmem : ∀ {l r : List α}, l ≠ [] → x :: r = l ++ x :: ds ∨ x :: r = l ++ x :: bs → x ∈ l := by
    intro l r hne heq
    obtain ⟨y, l, rfl⟩ := List.exists_cons_of_ne_nil hne
    rcases heq with heq | heq <;> rw [(List.cons.inj heq).1] <;> exact List.mem_cons_self
  rcases List.append_eq_append_iff.mp h with ⟨l, hl, hr⟩ | ⟨l, hl, hr⟩
  · by_cases hne : l = []
    · subst hne
      exact ⟨by simpa using hl.symm, (List.cons.inj hr).2⟩
    · exact absurd (hl ▸ List.mem_append_right _ (hmem hne (.inl hr))) hright
  · by_cases hne : l = []
    · subst hne
      exact ⟨by simpa using hl, (List.cons.inj hr).2.symm⟩
    · exact absurd (hl ▸ List.mem_append_right _ (hmem hne (.inr hr))) hleft

/-- Cut a text at the first separator. -/
theorem split_first (hsep : sep.toList.head? = some c) (hs : c ∉ s.toList) (hs' : c ∉ s'.toList)
    (h : s ++ sep ++ t = s' ++ sep ++ t') : s = s' ∧ t = t' := by
  obtain ⟨rest, hrest⟩ := List.head?_eq_some_iff.mp hsep
  have hlists := congrArg String.toList h
  simp only [String.toList_append, hrest, List.append_assoc, List.cons_append] at hlists
  obtain ⟨hs, ht⟩ := cons_append_inj hs hs' hlists
  exact ⟨String.toList_inj.mp hs, String.toList_inj.mp (List.append_cancel_left ht)⟩

/-- Cut a text at the last separator. -/
theorem split_last (hsep : sep.toList.head? = some c) (hsep' : c ∉ sep.toList.tail)
    (ht : c ∉ t.toList) (ht' : c ∉ t'.toList) (h : s ++ sep ++ t = s' ++ sep ++ t') :
    s = s' ∧ t = t' := by
  obtain ⟨rest, hrest⟩ := List.head?_eq_some_iff.mp hsep
  have hlists := congrArg (fun text => text.toList.reverse) h
  simp only [String.toList_append, hrest, List.append_assoc, List.cons_append,
    List.reverse_append, List.reverse_cons, List.nil_append] at hlists
  rw [hrest, List.tail_cons] at hsep'
  have hnone : ∀ {u : List Char}, c ∉ u → c ∉ u.reverse ++ rest.reverse := by
    intro u hu
    simpa using ⟨hu, hsep'⟩
  rw [← List.append_assoc, ← List.append_assoc] at hlists
  obtain ⟨ht, hs⟩ := cons_append_inj (hnone ht) (hnone ht') hlists
  have ht := List.reverse_injective (List.append_cancel_right ht)
  exact ⟨String.toList_inj.mp (List.reverse_injective hs), String.toList_inj.mp ht⟩

end Separators

/-! Numbers. -/
section Numbers

theorem toString_injective : Function.Injective (toString : ℤ → String) :=
  fun _ _ h => Int.repr_injective h

/-- A number is written with digits and a sign. -/
theorem notMem_toString {c : Char} (hdigit : c.isDigit = false) (hsign : c ≠ '-') (n : ℤ) :
    c ∉ (toString n).toList := by
  have hnat : ∀ m : ℕ, c ∉ (toString m).toList := by
    intro m hmem
    have hc := Nat.isDigit_of_mem_toDigits (b := 10) (n := m) (c := c) (by decide) (by decide)
      (by simpa using hmem)
    rw [hdigit] at hc
    cases hc
  cases n with
  | ofNat m => exact hnat m
  | negSucc m =>
    show c ∉ ("-" ++ toString (m + 1)).toList
    rw [String.toList_append, List.mem_append]
    rintro (hmem | hmem)
    · exact hsign (List.mem_singleton.mp hmem)
    · exact hnat (m + 1) hmem

end Numbers

end Texts
