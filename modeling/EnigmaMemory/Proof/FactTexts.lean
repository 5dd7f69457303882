import EnigmaMemory.Proof.ProofFields
import EnigmaMemory.Spec.AutoSave
import Mathlib.Data.List.Chain

/-!
# The texts of facts

What a turn is split into is normalized already: `normalizeText` finds nothing to do in the text of a fact
(`normalizeText_fact`), so that the checks, which normalize what they look at, look at what is stored.
-/

namespace EnigmaMemory.AutoSave

/-! ## Single white space -/

/-- No two units of white space in a row, and none but spaces and line feeds. -/
structure Single (s : JsString) : Prop where
  apart : s.IsChain fun a b => isWhite a = false ∨ isWhite b = false
  white : ∀ c ∈ s, isWhite c = true → c = 32 ∨ c = 10

theorem Single.within {s t : JsString} (h : Single s) (ht : t <:+: s) : Single t := by
  refine ⟨?_, fun c hc => h.white c (ht.subset hc)⟩
  obtain ⟨a, b, rfl⟩ := ht
  exact h.apart.left_of_append.right_of_append

theorem Single.tail {c : CodeUnit} {s : JsString} (h : Single (c :: s)) : Single s := h.within (List.suffix_cons c s).isInfix

/-- Behind white space there is none. -/
theorem Single.head? {c : CodeUnit} {s : JsString} (h : Single (c :: s)) (hc : isWhite c = true) : s.head?.any isWhite = false := by
  cases s with
  | nil => rfl
  | cons d s =>
    rcases (List.isChain_cons_cons.1 h.apart).1 with h | h
    · rw [hc] at h
      cases h
    · exact h

theorem squeeze_white (s : JsString) : ∀ inRun, ∀ c ∈ squeeze inRun s, isWhite c = true → c = 32 := by
  induction s with
  | nil => exact fun _ c hc => absurd hc List.not_mem_nil
  | cons d s ih =>
    intro inRun c hc hwhite
    simp only [squeeze] at hc
    split at hc
    · split at hc
      · exact ih true c hc hwhite
      · rcases List.mem_cons.1 hc with rfl | hc
        · rfl
        · exact ih true c hc hwhite
    · rename_i hd
      rcases List.mem_cons.1 hc with rfl | hc
      · exact absurd hwhite hd
      · exact ih false c hc hwhite

/-- In a run no white space follows. -/
theorem squeeze_run (s : JsString) : (squeeze true s).head?.any isWhite = false := by
  induction s with
  | nil => rfl
  | cons d s ih =>
    simp only [squeeze]
    split
    · exact ih
    · rename_i hd
      exact Bool.eq_false_iff.2 hd

theorem squeeze_apart (s : JsString) : ∀ inRun, (squeeze inRun s).IsChain fun a b => isWhite a = false ∨ isWhite b = false := by
  induction s with
  | nil => exact fun _ => .nil
  | cons d s ih =>
    intro inRun
    simp only [squeeze]
    split
    · split
      · exact ih true
      · refine (ih true).cons fun y hy => .inr ?_
        have hrun := squeeze_run s
        rw [hy] at hrun
        exact hrun
    · rename_i hd
      exact (ih false).cons fun y _ => .inl (Bool.eq_false_iff.2 hd)

theorem single_squeeze (s : JsString) (inRun : Bool) : Single (squeeze inRun s) :=
  ⟨squeeze_apart s inRun, fun c hc hwhite => .inl (squeeze_white s inRun c hc hwhite)⟩

theorem trim_within (s : JsString) : trim s <:+: s := by
  rw [trim_eq]
  exact (List.rdropWhile_prefix isWhite _).isInfix.trans (List.dropWhile_suffix isWhite).isInfix

/-! ## Line feeds in the place of white space -/

/-- The text with some white space replaced by line feeds. -/
def Broken : JsString → JsString → Prop := List.Forall₂ fun a b => b = a ∨ isWhite a = true ∧ b = 10

theorem isWhite_of_broken {a b : CodeUnit} (h : b = a ∨ isWhite a = true ∧ b = 10) : isWhite b = isWhite a := by
  rcases h with rfl | ⟨ha, rfl⟩
  · rfl
  · rw [ha]
    decide

theorem Single.broken {s t : JsString} (h : Single s) (ht : Broken s t) : Single t := by
  induction ht with
  | nil => exact h
  | @cons a b s t hab hst ih =>
    obtain ⟨hapart, hwhite⟩ := ih h.tail
    refine ⟨hapart.cons fun d hd => ?_, fun c hc hc' => ?_⟩
    · cases hst with
      | nil => cases hd
      | @cons a' b' _ _ hab' _ =>
        obtain rfl : b' = d := Option.some.inj hd
        rw [isWhite_of_broken hab, isWhite_of_broken hab']
        exact (List.isChain_cons_cons.1 h.apart).1
    · rcases List.mem_cons.1 hc with rfl | hc
      · rcases hab with rfl | ⟨-, rfl⟩
        · exact h.white c List.mem_cons_self hc'
        · exact .inr rfl
      · exact hwhite c hc hc'

theorem broken_breakStops (s : JsString) : ∀ afterStop, Single s → Broken s (breakStops afterStop s) := by
  induction s with
  | nil => exact fun _ _ => .nil
  | cons c s ih =>
    intro afterStop h
    simp only [breakStops]
    split
    · rename_i hbreak
      simp only [Bool.and_eq_true] at hbreak
      rw [h.head? hbreak.1.2]
      exact .cons (.inr ⟨hbreak.1.2, rfl⟩) (ih false h.tail)
    · exact .cons (.inl rfl) (ih _ h.tail)

theorem broken_breakQuotes (s : JsString) : ∀ after, Single s → Broken s (breakQuotes after s) := by
  induction s with
  | nil => exact fun _ _ => .nil
  | cons c s ih =>
    intro after h
    simp only [breakQuotes]
    split
    · split
      · rename_i hwhite
        rw [h.head? hwhite]
        exact .cons (.inr ⟨hwhite, rfl⟩) (ih _ h.tail)
      · exact .cons (.inl rfl) (ih _ h.tail)
    · exact .cons (.inl rfl) (ih _ h.tail)
    · exact .cons (.inl rfl) (ih _ h.tail)

/-! ## Sentences -/

/-- The pieces of a text that is split: the first is a start of it, the others are stretches, and none has the
separator. -/
theorem splitOn_pieces (sep : CodeUnit) (s : JsString) : ∃ first rest, s.splitOn sep = first :: rest ∧ first <+: s ∧ sep ∉ first ∧
    ∀ piece ∈ rest, piece <:+: s ∧ sep ∉ piece := by
  induction s with
  | nil => exact ⟨[], [], rfl, List.prefix_rfl, List.not_mem_nil, fun _ h => absurd h List.not_mem_nil⟩
  | cons c s ih =>
    obtain ⟨first, rest, hsplit, hfront, hfirst, hrest⟩ := ih
    have hsuffix : s <:+: c :: s := (List.suffix_cons c s).isInfix
    have hmore : ∀ piece ∈ rest, piece <:+: c :: s ∧ sep ∉ piece := fun piece hpiece =>
      ⟨(hrest piece hpiece).1.trans hsuffix, (hrest piece hpiece).2⟩
    rw [List.splitOn_cons_eq_if_modifyHead, hsplit]
    by_cases hc : c = sep
    · refine ⟨[], first :: rest, if_pos (beq_iff_eq.2 hc), List.nil_prefix, List.not_mem_nil, fun piece hpiece => ?_⟩
      rcases List.mem_cons.1 hpiece with rfl | hpiece
      · exact ⟨hfront.isInfix.trans hsuffix, hfirst⟩
      · exact hmore piece hpiece
    · refine ⟨c :: first, rest, if_neg (by simp [hc]), List.cons_prefix_cons.2 ⟨rfl, hfront⟩, ?_, hmore⟩
      simpa [Ne.symm hc] using hfirst

theorem mem_splitOn {sep : CodeUnit} {s piece : JsString} (h : piece ∈ s.splitOn sep) : piece <:+: s ∧ sep ∉ piece := by
  obtain ⟨first, rest, hsplit, hfront, hfirst, hrest⟩ := splitOn_pieces sep s
  rw [hsplit] at h
  rcases List.mem_cons.1 h with rfl | h
  · exact ⟨hfront.isInfix, hfirst⟩
  · exact hrest piece h

/-- Nothing to squeeze. -/
theorem squeeze_eq_self {s : JsString} : Single s → 10 ∉ s → squeeze false s = s ∧ (s.head?.any isWhite = false → squeeze true s = s) := by
  induction s with
  | nil => exact fun _ _ => ⟨rfl, fun _ => rfl⟩
  | cons c s ih =>
    intro h hfeed
    obtain ⟨hsqueeze, hrun⟩ := ih h.tail fun hs => hfeed (List.mem_cons_of_mem c hs)
    by_cases hc : isWhite c = true
    · obtain rfl : c = 32 := (h.white c List.mem_cons_self hc).resolve_right fun he => hfeed (he ▸ List.mem_cons_self)
      refine ⟨?_, fun hhead => absurd (hhead.symm.trans hc) Bool.false_ne_true⟩
      rw [squeeze, if_pos hc, if_neg Bool.false_ne_true, hrun (h.head? hc)]
    · refine ⟨?_, fun _ => ?_⟩ <;> rw [squeeze, if_neg hc, hsqueeze]

theorem normalizeText_single (text : JsString) : Single (normalizeText text) := (single_squeeze text false).within (trim_within _)

theorem normalizeValue_single (F : NumberFormat) (value : Option Json) : Single (normalizeValue F value) := by
  unfold normalizeValue
  split
  · exact ⟨.nil, fun c hc => absurd hc List.not_mem_nil⟩
  · exact ⟨.nil, fun c hc => absurd hc List.not_mem_nil⟩
  · exact normalizeText_single _

/-- **Facts are normalized.** -/
theorem normalizeText_fact {F : NumberFormat} {turnText : Option Json} {fact : JsString} (h : fact ∈ extractFacts F turnText) :
    normalizeText fact = fact := by
  have hsentence := (List.mem_filter.1 (List.mem_filter.1 h).1).1
  obtain ⟨piece, hpiece, rfl⟩ := List.mem_map.1 hsentence
  obtain ⟨hwithin, hfeed⟩ := mem_splitOn hpiece
  have hsingle := normalizeValue_single F turnText
  have hstops := hsingle.broken (broken_breakStops _ false hsingle)
  have hbroken := hstops.broken (broken_breakQuotes _ .other hstops)
  have htrim : Single (trim piece) := hbroken.within ((trim_within piece).trans hwithin)
  rw [normalizeText, (squeeze_eq_self htrim fun hmem => hfeed ((trim_within piece).subset hmem)).1, trim_trim]

end EnigmaMemory.AutoSave
