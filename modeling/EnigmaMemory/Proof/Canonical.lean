import EnigmaMemory.Proof.Decimal
import EnigmaMemory.Proof.JsString

/-!
# The canonical encoding is injective

* `stringify_inj`: the text of a JSON value followed by anything that does not go on
  as a number determines the value and what follows.
* `canonicalize_eq`: the canonical text is the text of the normalized value.
* `canonicalize_inj`: values with one canonical text are equal up to key order.
* `canonicalize_eq_iff`: the canonical texts are equal exactly when the values are.
-/

namespace EnigmaMemory

namespace Json

/-- Induction on a JSON value, with the hypothesis for every item and every field. -/
theorem ind {P : Json → Prop} (hnull : P null) (hbool : ∀ b, P (bool b)) (hnum : ∀ q, P (num q))
    (hstr : ∀ s, P (str s)) (harr : ∀ xs, (∀ x ∈ xs, P x) → P (arr xs))
    (hobj : ∀ fs, (∀ f ∈ fs, P f.2) → P (obj fs)) : ∀ j, P j :=
  @Json.rec P (fun xs => ∀ x ∈ xs, P x) (fun fs => ∀ f ∈ fs, P f.2) (fun f => P f.2)
    hnull hbool hnum hstr harr hobj
    (fun _ h => absurd h List.not_mem_nil)
    (fun _ _ hx hxs => List.forall_mem_cons.2 ⟨hx, hxs⟩)
    (fun _ h => absurd h List.not_mem_nil)
    (fun _ _ hf hfs => List.forall_mem_cons.2 ⟨hf, hfs⟩)
    (fun _ _ h => h)

variable (F : NumberFormat)

theorem stringifyItems_eq (xs : List Json) : stringifyItems F xs = xs.map (stringify F) := by
  induction xs with
  | nil => rfl
  | cons x xs ih => rw [stringifyItems, ih, List.map_cons]

theorem stringifyFields_eq (fs : List (JsString × Json)) :
    stringifyFields F fs = fs.map fun f => (f.1, stringify F f.2) := by
  induction fs with
  | nil => rfl
  | cons f fs ih => rw [stringifyFields, ih, List.map_cons]

theorem canonicalizeItems_eq (xs : List Json) : canonicalizeItems F xs = xs.map (canonicalize F) := by
  induction xs with
  | nil => rfl
  | cons x xs ih => rw [canonicalizeItems, ih, List.map_cons]

theorem canonicalizeFields_eq (fs : List (JsString × Json)) :
    canonicalizeFields F fs = fs.map fun f => (f.1, canonicalize F f.2) := by
  induction fs with
  | nil => rfl
  | cons f fs ih => rw [canonicalizeFields, ih, List.map_cons]

theorem normalizeItems_eq (xs : List Json) : normalizeItems xs = xs.map Json.normalize := by
  induction xs with
  | nil => rfl
  | cons x xs ih => rw [normalizeItems, ih, List.map_cons]

theorem normalizeFields_eq (fs : List (JsString × Json)) :
    normalizeFields fs = fs.map fun f => (f.1, Json.normalize f.2) := by
  induction fs with
  | nil => rfl
  | cons f fs ih => rw [normalizeFields, ih, List.map_cons]

end Json

theorem sortFields_map {α β : Type} (g : α → β) (fs : List (JsString × α)) :
    sortFields (fs.map fun f => (f.1, g f.2)) = (sortFields fs).map fun f => (f.1, g f.2) := by
  unfold sortFields
  rw [List.map_insertionSort _ (fun a b : JsString × β => a.1 ≤ b.1)]
  exact fun _ _ _ _ => Iff.rfl

/-- **The canonical text is the text of the normalized value.** -/
theorem Json.canonicalize_eq (F : NumberFormat) (j : Json) :
    j.canonicalize F = j.normalize.stringify F := by
  induction j using Json.ind with
  | hnull => rfl
  | hbool b => rfl
  | hnum q => rfl
  | hstr s => rfl
  | harr xs ih =>
    rw [canonicalize, Json.normalize, stringify, canonicalizeItems_eq, normalizeItems_eq, stringifyItems_eq,
      List.map_map, List.map_congr_left ih]
    rfl
  | hobj fs ih =>
    have hf : (fs.map fun f => (f.1, canonicalize F f.2)) =
        (fs.map fun f => (f.1, Json.normalize f.2)).map fun f => (f.1, stringify F f.2) := by
      rw [List.map_map]
      exact List.map_congr_left fun f hf => by rw [ih f hf]; rfl
    rw [canonicalize, Json.normalize, stringify, canonicalizeFields_eq, normalizeFields_eq, stringifyFields_eq,
      hf, sortFields_map]

/-! ## The text of a value -/

/-- What the first unit of a text says about the value: `null`, a boolean, a string, an
array, an object, a number, or (6) no value at all. -/
def unitKind (c : CodeUnit) : ℕ :=
  if c = 0x6E then 0 else if c = 0x74 ∨ c = 0x66 then 1 else if c = 0x22 then 2 else if c = 0x5B then 3
  else if c = 0x7B then 4 else if isNumberUnit c then 5 else 6

def Json.kind : Json → ℕ
  | .null => 0
  | .bool _ => 1
  | .str _ => 2
  | .arr _ => 3
  | .obj _ => 4
  | .num _ => 5

theorem unitKind_number {c : CodeUnit} (h : isNumberUnit c = true) : unitKind c = 5 := by
  unfold unitKind
  split_ifs <;> first | rfl | (exfalso; simp_all [isNumberUnit])
  all_goals (rename_i hc; rcases hc with rfl | rfl <;> exact absurd h (by decide))

theorem Json.kind_head (F : NumberFormat) (j : Json) (x : JsString) :
    ∃ c r, j.stringify F ++ x = c :: r ∧ unitKind c = j.kind := by
  cases j with
  | null => exact ⟨_, _, rfl, by decide⟩
  | bool b => cases b <;> exact ⟨_, _, rfl, by decide⟩
  | num q =>
    obtain ⟨c, r, hq⟩ := List.exists_cons_of_ne_nil (F.numberText_ne q)
    refine ⟨c, r ++ x, by rw [stringify, hq]; rfl, ?_⟩
    exact unitKind_number (F.numberText_units q c (by rw [hq]; exact List.mem_cons_self))
  | str s => exact ⟨_, _, rfl, rfl⟩
  | arr xs => exact ⟨_, _, rfl, rfl⟩
  | obj fs => exact ⟨_, _, rfl, rfl⟩

theorem Json.kind_eq {F : NumberFormat} {a b : Json} {x y : JsString}
    (h : a.stringify F ++ x = b.stringify F ++ y) : a.kind = b.kind := by
  obtain ⟨c, r, ha, hka⟩ := Json.kind_head F a x
  obtain ⟨d, s, hb, hkb⟩ := Json.kind_head F b y
  rw [ha, hb] at h
  rw [← hka, ← hkb, (List.cons.inj h).1]

/-- The text does not go on as a number. -/
def Stop (x : JsString) : Prop := ∀ c ∈ x.head?, isNumberUnit c = false

theorem numberText_append_inj {F : NumberFormat} {q r : ℚ} {x y : JsString} (hx : Stop x) (hy : Stop y)
    (h : F.numberText q ++ x = F.numberText r ++ y) : q = r ∧ x = y := by
  have key : ∀ (q : ℚ) (x : JsString), Stop x → (F.numberText q ++ x).takeWhile isNumberUnit = F.numberText q := by
    intro q x hx
    rw [List.takeWhile_append_of_pos (F.numberText_units q)]
    cases x with
    | nil => simp
    | cons c x => simp [hx c (by simp)]
  have ht : F.numberText q = F.numberText r := by rw [← key q x hx, h, key r y hy]
  rw [ht] at h
  exact ⟨F.numberText_inj ht, List.append_cancel_left h⟩

/-- What `joinComma` writes after the first item. -/
def commaTail : List JsString → JsString
  | [] => []
  | x :: rest => 0x2C :: (x ++ commaTail rest)

theorem joinComma_cons (x : JsString) (rest : List JsString) : joinComma (x :: rest) = x ++ commaTail rest := by
  induction rest generalizing x with
  | nil => simp [joinComma, commaTail]
  | cons y rest ih => rw [joinComma, commaTail, ih y]

theorem stop_commaTail (l : List JsString) {c : CodeUnit} (hc : isNumberUnit c = false) (x : JsString) :
    Stop (commaTail l ++ c :: x) := by
  cases l with
  | nil => simpa [Stop, commaTail] using hc
  | cons y l => intro d hd; simp [commaTail] at hd; subst hd; decide

/-- A text that determines its value, in front of anything that stops numbers. -/
def SelfDelim {α : Type} (text : α → JsString) (a : α) : Prop :=
  ∀ b x y, Stop x → Stop y → text a ++ x = text b ++ y → a = b ∧ x = y

/-- Comma-separated self-delimiting texts, up to a closing bracket. -/
theorem commaTail_inj {α : Type} {text : α → JsString} {close : CodeUnit} (hnum : isNumberUnit close = false)
    (hcomma : close ≠ 0x2C) : ∀ as bs : List α, (∀ a ∈ as, SelfDelim text a) → ∀ x y,
      commaTail (as.map text) ++ close :: x = commaTail (bs.map text) ++ close :: y → as = bs ∧ x = y
  | [], [] => fun _ x y h => by simpa [commaTail] using h
  | [], b :: bs => fun _ x y h => by simp [commaTail, hcomma] at h
  | a :: as, [] => fun _ x y h => by simp [commaTail, hcomma.symm] at h
  | a :: as, b :: bs => fun hself x y h => by
    simp only [List.map_cons, commaTail, List.cons_append, List.append_assoc, List.cons.injEq, true_and] at h
    obtain ⟨hab, hrest⟩ := hself a List.mem_cons_self b _ _ (stop_commaTail _ hnum x) (stop_commaTail _ hnum y) h
    obtain ⟨hs, hxy⟩ := commaTail_inj hnum hcomma as bs
      (fun c hc => hself c (List.mem_cons_of_mem _ hc)) x y hrest
    exact ⟨by rw [hab, hs], hxy⟩

/-- A bracketed list of self-delimiting texts, none of which starts like the bracket. -/
theorem joinComma_inj {α : Type} (text : α → JsString) {close : CodeUnit} (hnum : isNumberUnit close = false)
    (hcomma : close ≠ 0x2C) (hhead : ∀ (a : α) x, ∃ c r, text a ++ x = c :: r ∧ c ≠ close)
    (as bs : List α) (hself : ∀ a ∈ as, SelfDelim text a) (x y : JsString)
    (h : joinComma (as.map text) ++ close :: x = joinComma (bs.map text) ++ close :: y) : as = bs ∧ x = y := by
  cases as with
  | nil =>
    cases bs with
    | nil => simpa [joinComma] using h
    | cons b bs =>
      rw [List.map_cons, joinComma_cons, List.append_assoc] at h
      obtain ⟨c, r, hb, hc⟩ := hhead b (commaTail (bs.map text) ++ close :: y)
      rw [hb] at h
      simp [joinComma] at h
      exact absurd h.1.symm hc
  | cons a as =>
    rw [List.map_cons, joinComma_cons, List.append_assoc] at h
    cases bs with
    | nil =>
      obtain ⟨c, r, ha, hc⟩ := hhead a (commaTail (as.map text) ++ close :: x)
      rw [ha] at h
      simp [joinComma] at h
      exact absurd h.1 hc
    | cons b bs =>
      rw [List.map_cons, joinComma_cons, List.append_assoc] at h
      obtain ⟨hab, hrest⟩ := hself a List.mem_cons_self b _ _ (stop_commaTail _ hnum x) (stop_commaTail _ hnum y) h
      obtain ⟨hs, hxy⟩ := commaTail_inj hnum hcomma as bs
        (fun c hc => hself c (List.mem_cons_of_mem _ hc)) x y hrest
      exact ⟨by rw [hab, hs], hxy⟩

/-- The text of a field. -/
def fieldText (F : NumberFormat) (f : JsString × Json) : JsString := renderField (f.1, f.2.stringify F)

theorem selfDelim_field {F : NumberFormat} {f : JsString × Json} (h : SelfDelim (Json.stringify F) f.2) :
    SelfDelim (fieldText F) f := by
  intro g x y hx hy heq
  simp only [fieldText, renderField, List.append_assoc, List.cons_append] at heq
  obtain ⟨hkey, hrest⟩ := jsonQuote_append_inj heq
  obtain ⟨hval, hxy⟩ := h g.2 x y hx hy (List.cons.inj hrest).2
  exact ⟨Prod.ext hkey hval, hxy⟩

theorem fieldText_head (F : NumberFormat) (f : JsString × Json) (x : JsString) :
    ∃ c r, fieldText F f ++ x = c :: r ∧ c ≠ 0x7D :=
  ⟨_, _, rfl, by decide⟩

theorem stringify_head (F : NumberFormat) (j : Json) (x : JsString) :
    ∃ c r, j.stringify F ++ x = c :: r ∧ c ≠ 0x5D := by
  obtain ⟨c, r, h, hk⟩ := Json.kind_head F j x
  refine ⟨c, r, h, ?_⟩
  rintro rfl
  have h6 : unitKind 0x5D = 6 := by decide
  rw [h6] at hk
  cases j <;> simp [Json.kind] at hk

/-- **The text of a JSON value determines it.** -/
theorem stringify_inj (F : NumberFormat) (a : Json) : SelfDelim (Json.stringify F) a := by
  induction a using Json.ind with
  | hnull =>
    intro b x y _ _ h
    have hk := Json.kind_eq h
    cases b <;> simp [Json.kind] at hk
    exact ⟨rfl, List.append_cancel_left h⟩
  | hbool b =>
    intro c x y _ _ h
    have hk := Json.kind_eq h
    cases c <;> simp [Json.kind] at hk
    rename_i c
    cases b <;> cases c <;> simp only [Json.stringify, if_true, if_false, Bool.false_eq_true] at h ⊢
    · exact ⟨trivial, List.append_cancel_left h⟩
    · exact absurd (List.cons.inj h).1 (by decide)
    · exact absurd (List.cons.inj h).1 (by decide)
    · exact ⟨trivial, List.append_cancel_left h⟩
  | hnum q =>
    intro b x y hx hy h
    have hk := Json.kind_eq h
    cases b <;> simp [Json.kind] at hk
    obtain ⟨hq, hxy⟩ := numberText_append_inj hx hy h
    exact ⟨by rw [hq], hxy⟩
  | hstr s =>
    intro b x y _ _ h
    have hk := Json.kind_eq h
    cases b <;> simp [Json.kind] at hk
    obtain ⟨hs, hxy⟩ := jsonQuote_append_inj h
    exact ⟨by rw [hs], hxy⟩
  | harr xs ih =>
    intro b x y _ _ h
    have hk := Json.kind_eq h
    cases b <;> simp [Json.kind] at hk
    rename_i ys
    simp only [Json.stringify, Json.stringifyItems_eq, List.cons_append, List.append_assoc, List.nil_append,
      List.cons.injEq, true_and] at h
    obtain ⟨hs, hxy⟩ := joinComma_inj (Json.stringify F) (by decide) (by decide) (stringify_head F) xs ys ih x y h
    exact ⟨by rw [hs], hxy⟩
  | hobj fs ih =>
    intro b x y _ _ h
    have hk := Json.kind_eq h
    cases b <;> simp [Json.kind] at hk
    rename_i gs
    simp only [Json.stringify, Json.stringifyFields_eq, List.map_map, List.cons_append, List.append_assoc,
      List.nil_append, List.cons.injEq, true_and] at h
    obtain ⟨hs, hxy⟩ := joinComma_inj (fieldText F) (by decide) (by decide) (fieldText_head F)
      fs gs (fun f hf => selfDelim_field (ih f hf)) x y h
    exact ⟨by rw [hs], hxy⟩

/-- **The canonical encoding is injective**, up to the order of keys. -/
theorem canonicalize_inj {F : NumberFormat} {a b : Json} (h : a.canonicalize F = b.canonicalize F) :
    Json.Same a b := by
  rw [Json.canonicalize_eq, Json.canonicalize_eq] at h
  have hstop : Stop [] := by intro c hc; simp at hc
  exact (stringify_inj F _ _ [] [] hstop hstop (by rw [h])).1

/-! ## Deep equality -/

/-- Sorted lists with the same fields and no key twice are one list. -/
theorem eq_of_sorted_fields {α : Type} {fs gs : List (JsString × α)} (hf : (fs.map Prod.fst).Nodup)
    (hg : (gs.map Prod.fst).Nodup) (hfs : fs.Pairwise fun f g => f.1 ≤ g.1) (hgs : gs.Pairwise fun f g => f.1 ≤ g.1)
    (h : ∀ p, p ∈ fs ↔ p ∈ gs) : fs = gs := by
  have hperm : fs.Perm gs := (List.perm_ext_iff_of_nodup hf.of_map hg.of_map).2 h
  refine hperm.eq_of_pairwise ?_ hfs hgs
  -- two fields that are sorted both ways have one key
  intro a b ha hb hab hba
  exact List.inj_on_of_nodup_map hg ((h a).1 ha) hb (le_antisymm hab hba)

theorem pairwise_sortFields {α : Type} (fs : List (JsString × α)) : (sortFields fs).Pairwise fun f g => f.1 ≤ g.1 := by
  have : Std.Total fun a b : JsString × α => a.1 ≤ b.1 := ⟨fun a b => le_total a.1 b.1⟩
  have : IsTrans (JsString × α) fun a b => a.1 ≤ b.1 := ⟨fun _ _ _ => le_trans⟩
  exact List.pairwise_insertionSort _ fs

theorem mem_sortFields {α : Type} {f : JsString × α} {fs : List (JsString × α)} : f ∈ sortFields fs ↔ f ∈ fs :=
  List.mem_insertionSort _

theorem nodup_sortFields {α : Type} {fs : List (JsString × α)} (h : (fs.map Prod.fst).Nodup) :
    ((sortFields fs).map Prod.fst).Nodup := ((List.perm_insertionSort _ fs).map Prod.fst).nodup_iff.2 h

/-- Lists of fields with the same fields and no key twice are sorted into one list. -/
theorem sortFields_congr {α : Type} {fs gs : List (JsString × α)} (hf : (fs.map Prod.fst).Nodup)
    (hg : (gs.map Prod.fst).Nodup) (h : ∀ p, p ∈ fs ↔ p ∈ gs) : sortFields fs = sortFields gs :=
  eq_of_sorted_fields (nodup_sortFields hf) (nodup_sortFields hg) (pairwise_sortFields fs) (pairwise_sortFields gs) fun p => by
    rw [mem_sortFields, mem_sortFields, h]

namespace Json

theorem mem_keys_normalize {fs : List (JsString × Json)} {k : JsString} :
    k ∈ (fs.map fun f => (f.1, Json.normalize f.2)).map Prod.fst ↔ k ∈ fs.map Prod.fst := by
  rw [List.map_map]
  rfl

/-- A deeply equal value has the same normal form. -/
theorem Equal.same {a b : Json} (h : Equal a b) (ha : UniqueKeys a) (hb : UniqueKeys b) : Same a b := by
  unfold Same
  induction h with
  | null => rfl
  | bool b => rfl
  | num q => rfl
  | str s => rfl
  | @arr xs ys hlen hitems ih =>
    cases ha with
    | arr ha =>
    cases hb with
    | arr hb =>
    rw [Json.normalize, Json.normalize, normalizeItems_eq, normalizeItems_eq]
    congr 1
    refine List.ext_getElem? fun i => ?_
    rw [List.getElem?_map, List.getElem?_map]
    by_cases hi : i < xs.length
    · have hx : xs[i]? = some xs[i] := List.getElem?_eq_getElem hi
      have hy : ys[i]? = some (ys.get ⟨i, hlen ▸ hi⟩) := List.getElem?_eq_getElem (hlen ▸ hi)
      rw [hx, hy, Option.map_some, Option.map_some]
      exact congrArg some (ih i _ _ hx hy (ha _ (List.getElem_mem hi)) (hb _ (List.get_mem ys _)))
    · rw [List.getElem?_eq_none (by omega), List.getElem?_eq_none (by omega)]
  | @obj fs gs hkeys hvals ih =>
    cases ha with
    | obj hfs ha =>
    cases hb with
    | obj hgs hb =>
    rw [Json.normalize, Json.normalize, normalizeFields_eq, normalizeFields_eq]
    congr 1
    refine sortFields_congr ?_ ?_ ?_
    · rw [List.map_map]
      exact hfs
    · rw [List.map_map]
      exact hgs
    · rintro ⟨k, n⟩
      simp only [List.mem_map, Prod.mk.injEq, Prod.exists]
      constructor
      · rintro ⟨k', x, hx, rfl, rfl⟩
        obtain ⟨⟨k'', y⟩, hy, rfl⟩ := List.mem_map.1 ((hkeys _).1 (List.mem_map_of_mem hx))
        exact ⟨k'', y, hy, rfl, (ih _ x y hx hy (ha _ hx) (hb _ hy)).symm⟩
      · rintro ⟨k', y, hy, rfl, rfl⟩
        obtain ⟨⟨k'', x⟩, hx, rfl⟩ := List.mem_map.1 ((hkeys _).2 (List.mem_map_of_mem hy))
        exact ⟨k'', x, hx, rfl, ih _ x y hx hy (ha _ hx) (hb _ hy)⟩

/-- Values with one normal form are deeply equal. -/
theorem Same.equal {a : Json} : ∀ {b : Json}, Same a b → UniqueKeys b → Equal a b := by
  unfold Same
  induction a using Json.ind with
  | hnull =>
    intro b h _
    cases b <;> simp [Json.normalize] at h
    exact .null
  | hbool c =>
    intro b h _
    cases b <;> simp [Json.normalize] at h
    exact h ▸ .bool c
  | hnum q =>
    intro b h _
    cases b <;> simp [Json.normalize] at h
    exact h ▸ .num q
  | hstr s =>
    intro b h _
    cases b <;> simp [Json.normalize] at h
    exact h ▸ .str s
  | harr xs ih =>
    intro b h hb
    cases b <;> simp only [Json.normalize, reduceCtorEq] at h
    rename_i ys
    cases hb with
    | arr hb =>
    rw [arr.injEq, normalizeItems_eq, normalizeItems_eq] at h
    have hlen : xs.length = ys.length := by simpa using congrArg List.length h
    refine .arr hlen fun i x y hx hy => ih x (List.mem_of_getElem? hx) ?_ (hb y (List.mem_of_getElem? hy))
    have hi := congrArg (fun l => l[i]?) h
    simpa [hx, hy] using hi
  | hobj fs ih =>
    intro b h hb
    cases b <;> simp only [Json.normalize, reduceCtorEq] at h
    rename_i gs
    cases hb with
    | obj hgs hb =>
    rw [obj.injEq, normalizeFields_eq, normalizeFields_eq] at h
    have hperm : (fs.map fun f => (f.1, Json.normalize f.2)).Perm (gs.map fun f => (f.1, Json.normalize f.2)) := by
      refine (List.perm_insertionSort (fun a b : JsString × Json => a.1 ≤ b.1) _).symm.trans ?_
      rw [← sortFields, h]
      exact List.perm_insertionSort _ _
    refine .obj (fun k => ?_) (fun k x y hx hy => ?_)
    · rw [← mem_keys_normalize, (hperm.map Prod.fst).mem_iff, mem_keys_normalize]
    · -- the field of `gs` with this key is the one that the normal forms share
      have hmem : (k, Json.normalize x) ∈ gs.map fun f => (f.1, Json.normalize f.2) :=
        hperm.mem_iff.1 (List.mem_map.2 ⟨(k, x), hx, rfl⟩)
      obtain ⟨⟨k', y'⟩, hy', heq⟩ := List.mem_map.1 hmem
      simp only [Prod.mk.injEq] at heq
      have hyy : (k', y') = (k, y) := List.inj_on_of_nodup_map hgs hy' hy heq.1
      rw [Prod.mk.injEq] at hyy
      exact ih (k, x) hx (by rw [← heq.2, hyy.2]) (hb (k, y) hy)

end Json

/-- **The canonical encoding identifies exactly the equal values**: two values have one
canonical text if and only if they are equal up to the order of keys. -/
theorem canonicalize_eq_iff (F : NumberFormat) (a b : Json) (ha : a.UniqueKeys) (hb : b.UniqueKeys) :
    a.canonicalize F = b.canonicalize F ↔ Json.Equal a b := by
  constructor
  · intro h
    exact (canonicalize_inj h).equal hb
  · intro h
    have hsame : a.normalize = b.normalize := h.same ha hb
    rw [Json.canonicalize_eq, Json.canonicalize_eq, hsame]

/-- A key may move, at any depth; a string in place of a boolean is another value. -/
theorem canonicalize_eq_iff_object :
    Json.Equal (.obj [(js "b", .arr [.obj [(js "d", .null), (js "c", .bool true)]]), (js "a", .str (js "\\"))])
      (.obj [(js "a", .str (js "\\")), (js "b", .arr [.obj [(js "c", .bool true), (js "d", .null)]])]) ∧
    ¬ Json.Equal (.obj [(js "a", .bool true)]) (.obj [(js "a", .str (js "true"))]) := by
  have hone : ∀ (k : JsString) (x : Json), x.UniqueKeys → (Json.obj [(k, x)]).UniqueKeys := by
    intro k x hx
    exact .obj (by simp) (by simpa using hx)
  have htwo : ∀ (k l : JsString) (x y : Json), k ≠ l → x.UniqueKeys → y.UniqueKeys →
      (Json.obj [(k, x), (l, y)]).UniqueKeys := by
    intro k l x y hne hx hy
    refine .obj (by simpa using hne) ?_
    simp [hx, hy]
  have harr : ∀ x : Json, x.UniqueKeys → (Json.arr [x]).UniqueKeys := by
    intro x hx
    exact .arr (by simpa using hx)
  refine ⟨(canonicalize_eq_iff decimalFormat _ _ ?_ ?_).1 (by decide), fun h => ?_⟩
  · exact htwo _ _ _ _ (by decide) (harr _ (htwo _ _ _ _ (by decide) .null (.bool true))) (.str _)
  · exact htwo _ _ _ _ (by decide) (.str _) (harr _ (htwo _ _ _ _ (by decide) (.bool true) .null))
  · have htext := (canonicalize_eq_iff decimalFormat _ _ (hone _ _ (.bool true)) (hone _ _ (.str _))).2 h
    exact absurd htext (by decide)

end EnigmaMemory
