import Mathlib.Data.List.Infix
import Mathlib.Tactic.Common

/-!
# Frames cut from a stream

A stream arrives in chunks. A reader looks at the front of what it has: it has to wait for more, it
takes a frame off, or what stands there is bad. A receiver that meets something bad reports it once,
forgets what it has read in that chunk, and begins anew with the next chunk.

* `events_of_sound`: frames that nothing bad follows are received however the stream is cut.
* `events_of_steady`: so is a stream that begins badly and can be read nowhere after that.
* `exists_of_not_steady`: two ways to cut any other stream show in the number of events.
-/

namespace Framing

variable {α β : Type*}

/-- What stands at the front of a buffer. -/
inductive Front (α β : Type*) where
  | wait
  | bad
  | frame (b : β) (rest : List α)

structure Reader (α β : Type*) where
  read : List α → Front α β
  read_nil : read [] = .wait
  /-- A frame ends somewhere. -/
  frame_front : ∀ {xs b rest}, read xs = .frame b rest → ∃ q, xs = q ++ rest ∧ read q = .frame b []
  /-- What has been read does not change with what follows. -/
  frame_append : ∀ {xs b}, read xs = .frame b [] → ∀ ys, read (xs ++ ys) = .frame b ys
  bad_append : ∀ {xs}, read xs = .bad → ∀ ys, read (xs ++ ys) = .bad

variable (R : Reader α β)

variable {R} in
theorem Reader.shorter {xs rest : List α} {b : β} (h : R.read xs = .frame b rest) : rest.length < xs.length := by
  obtain ⟨q, rfl, hq⟩ := R.frame_front h
  cases q with
  | nil =>
    rw [R.read_nil] at hq
    cases hq
  | cons x q =>
    rw [List.length_append, List.length_cons]
    omega

variable {R} in
theorem Reader.frame_append_rest {xs rest : List α} {b : β} (h : R.read xs = .frame b rest) (ys : List α) :
    R.read (xs ++ ys) = .frame b (rest ++ ys) := by
  obtain ⟨q, rfl, hq⟩ := R.frame_front h
  rw [List.append_assoc]
  exact R.frame_append hq _

/-- The frames at the front of a buffer, and what remains; nothing remains if something bad is met. -/
def scan (xs : List α) : List β × Option (List α) :=
  match _h : R.read xs with
  | .wait => ([], some xs)
  | .bad => ([], none)
  | .frame b rest => (b :: (scan rest).1, (scan rest).2)
termination_by xs.length
decreasing_by all_goals exact Reader.shorter _h

variable {R} {xs ys rest : List α} {b : β} {bs : List β}

theorem scan_wait (h : R.read xs = .wait) : scan R xs = ([], some xs) := by
  rw [scan]
  split <;> simp_all

theorem scan_bad (h : R.read xs = .bad) : scan R xs = ([], none) := by
  rw [scan]
  split <;> simp_all

theorem scan_frame (h : R.read xs = .frame b rest) : scan R xs = (b :: (scan R rest).1, (scan R rest).2) := by
  rw [scan]
  split
  · rename_i h'
    rw [h] at h'
    cases h'
  · rename_i h'
    rw [h] at h'
    cases h'
  · rename_i h'
    rw [h] at h'
    cases h'
    rfl

theorem scan_eq_nil_none : scan R xs = ([], none) ↔ R.read xs = .bad := by
  constructor
  · intro h
    cases hread : R.read xs with
    | wait =>
      rw [scan_wait hread] at h
      cases h
    | bad => rfl
    | frame b rest =>
      rw [scan_frame hread] at h
      cases h
  · exact scan_bad

/-- What remains has to wait. -/
theorem read_of_scan (h : scan R xs = (bs, some rest)) : R.read rest = .wait := by
  induction hn : xs.length using Nat.strong_induction_on generalizing xs bs with
  | _ n ih =>
    cases hread : R.read xs with
    | wait =>
      rw [scan_wait hread] at h
      cases h
      exact hread
    | bad =>
      rw [scan_bad hread] at h
      cases h
    | frame b rest' =>
      rw [scan_frame hread] at h
      obtain ⟨-, hrest⟩ := Prod.mk.inj h
      exact ih _ (hn ▸ Reader.shorter hread) (Prod.ext rfl hrest) rfl

theorem scan_append (h : scan R xs = (bs, some rest)) (ys : List α) :
    scan R (xs ++ ys) = (bs ++ (scan R (rest ++ ys)).1, (scan R (rest ++ ys)).2) := by
  induction hn : xs.length using Nat.strong_induction_on generalizing xs bs with
  | _ n ih =>
    cases hread : R.read xs with
    | wait =>
      rw [scan_wait hread] at h
      cases h
      rfl
    | bad =>
      rw [scan_bad hread] at h
      cases h
    | frame b rest' =>
      rw [scan_frame hread] at h
      obtain ⟨rfl, hrest⟩ := Prod.mk.inj h
      rw [scan_frame (Reader.frame_append_rest hread ys), ih _ (hn ▸ Reader.shorter hread) (Prod.ext rfl hrest) rfl,
        List.cons_append]

theorem scan_append_bad (h : scan R xs = (bs, none)) (ys : List α) : scan R (xs ++ ys) = (bs, none) := by
  induction hn : xs.length using Nat.strong_induction_on generalizing xs bs with
  | _ n ih =>
    cases hread : R.read xs with
    | wait =>
      rw [scan_wait hread] at h
      cases h
    | bad =>
      rw [scan_bad hread] at h
      rw [scan_bad (R.bad_append hread ys), h]
    | frame b rest' =>
      rw [scan_frame hread] at h
      obtain ⟨rfl, hrest⟩ := Prod.mk.inj h
      rw [scan_frame (Reader.frame_append_rest hread ys), ih _ (hn ▸ Reader.shorter hread) (Prod.ext rfl hrest) rfl]

/-- The frames before something bad stand apart from it. -/
theorem exists_of_scan_bad (h : scan R xs = (bs, none)) :
    ∃ q r, xs = q ++ r ∧ scan R q = (bs, some []) ∧ R.read r = .bad := by
  induction hn : xs.length using Nat.strong_induction_on generalizing xs bs with
  | _ n ih =>
    cases hread : R.read xs with
    | wait =>
      rw [scan_wait hread] at h
      cases h
    | bad =>
      rw [scan_bad hread] at h
      cases h
      exact ⟨[], xs, rfl, scan_wait R.read_nil, hread⟩
    | frame b rest' =>
      rw [scan_frame hread] at h
      obtain ⟨rfl, hrest⟩ := Prod.mk.inj h
      obtain ⟨q, r, hqr, hq, hr⟩ := ih _ (hn ▸ Reader.shorter hread) (Prod.ext rfl hrest) rfl
      obtain ⟨f, rfl, hf⟩ := R.frame_front hread
      refine ⟨f ++ q, r, by rw [hqr, List.append_assoc], ?_, hr⟩
      rw [scan_frame (R.frame_append hf q), hq]

/-! ## A receiver -/

variable (R) in
/-- What a chunk leads to, after what is pending: the events it makes, `none` for something bad, and what is pending then. -/
def feed (pending chunk : List α) : List (Option β) × List α :=
  match scan R (pending ++ chunk) with
  | (bs, some rest) => (bs.map some, rest)
  | (_, none) => ([none], [])

variable (R) in
def events : List α → List (List α) → List (Option β)
  | _, [] => []
  | pending, chunk :: chunks => (feed R pending chunk).1 ++ events (feed R pending chunk).2 chunks

theorem feed_of_scan {pending chunk : List α} (h : scan R (pending ++ chunk) = (bs, some rest)) :
    feed R pending chunk = (bs.map some, rest) := by
  rw [feed, h]

theorem feed_of_bad {pending chunk : List α} (h : scan R (pending ++ chunk) = (bs, none)) :
    feed R pending chunk = ([none], []) := by
  rw [feed, h]

/-- **Frames that nothing bad follows** are received one by one, however they are cut. -/
theorem events_of_sound (chunks : List (List α)) : ∀ {pending : List α} {bs : List β}, R.read pending = .wait →
    scan R (pending ++ chunks.flatten) = (bs, some rest) → events R pending chunks = bs.map some := by
  induction chunks with
  | nil =>
    intro pending bs hwait h
    rw [List.flatten_nil, List.append_nil, scan_wait hwait] at h
    cases h
    rfl
  | cons chunk chunks ih =>
    intro pending bs hwait h
    rw [List.flatten_cons, ← List.append_assoc] at h
    cases hscan : scan R (pending ++ chunk) with
    | mk bs' rest' =>
      cases rest' with
      | none =>
        rw [scan_append_bad hscan] at h
        cases h
      | some rest' =>
        rw [scan_append hscan] at h
        obtain ⟨rfl, hrest⟩ := Prod.mk.inj h
        rw [events, feed_of_scan hscan, ih (read_of_scan hscan) (Prod.ext rfl hrest), List.map_append]

/-- Nothing is received from what has to wait. -/
theorem events_of_wait {chunks : List (List α)} (h : R.read chunks.flatten = .wait) : events R [] chunks = [] :=
  events_of_sound chunks R.read_nil (scan_wait h)

variable (R) in
/-- Nothing bad is met in a stream, or it begins with it and can be read nowhere after that. -/
def Steady (stream : List α) : Prop :=
  (scan R stream).2 ≠ none ∨
    (R.read stream = .bad ∧ ∀ q r, stream = q ++ r → R.read q = .bad → R.read r = .wait)

/-- A stream that begins badly and can be read nowhere after that is reported once. -/
theorem events_of_bad (chunks : List (List α)) : ∀ {pending : List α}, R.read pending = .wait →
    R.read (pending ++ chunks.flatten) = .bad →
    (∀ q r, pending ++ chunks.flatten = q ++ r → R.read q = .bad → R.read r = .wait) → events R pending chunks = [none] := by
  induction chunks with
  | nil =>
    intro pending hwait hbad
    rw [List.flatten_nil, List.append_nil, hwait] at hbad
    cases hbad
  | cons chunk chunks ih =>
    intro pending hwait hbad hafter
    rw [List.flatten_cons, ← List.append_assoc] at hbad hafter
    cases hread : R.read (pending ++ chunk) with
    | wait => rw [events, feed_of_scan (scan_wait hread), ih hread hbad hafter, List.map_nil, List.nil_append]
    | bad =>
      rw [events, feed_of_bad (scan_bad hread), events_of_wait (hafter _ _ rfl hread), List.append_nil]
    | frame b rest =>
      rw [Reader.frame_append_rest hread] at hbad
      cases hbad

/-- **A steady stream is received in one way**: its frames, and then what is bad. -/
theorem events_of_steady {stream : List α} (h : Steady R stream) {chunks : List (List α)} (hcut : chunks.flatten = stream) :
    events R [] chunks = (scan R stream).1.map some ++ if (scan R stream).2 = none then [none] else [] := by
  subst hcut
  rcases h with h | ⟨hbad, hafter⟩
  · obtain ⟨rest, hrest⟩ := Option.ne_none_iff_exists'.1 h
    rw [if_neg h, List.append_nil]
    exact events_of_sound chunks R.read_nil (Prod.ext rfl hrest)
  · rw [scan_bad hbad]
    exact events_of_bad chunks R.read_nil hbad hafter

theorem events_one (stream : List α) : events R [] [stream] = (feed R [] stream).1 := by
  rw [events, events, List.append_nil]

theorem events_two (q r : List α) : events R [] [q, r] = (feed R [] q).1 ++ (feed R (feed R [] q).2 r).1 := by
  rw [events, events, events, List.append_nil]

/-- Whatever can be read makes an event. -/
theorem feed_ne_nil {stream : List α} (h : R.read stream ≠ .wait) : (feed R [] stream).1 ≠ [] := by
  cases hread : R.read stream with
  | wait => exact absurd hread h
  | bad =>
    rw [feed_of_bad (scan_bad (show R.read ([] ++ stream) = .bad from hread))]
    exact List.cons_ne_nil _ _
  | frame b rest =>
    have hscan : scan R ([] ++ stream) = (b :: (scan R rest).1, (scan R rest).2) := scan_frame hread
    cases hrest : (scan R rest).2 with
    | none =>
      rw [feed_of_bad (hscan.trans (Prod.ext rfl hrest))]
      exact List.cons_ne_nil _ _
    | some rest' =>
      rw [feed_of_scan (hscan.trans (Prod.ext rfl hrest))]
      exact List.cons_ne_nil _ _

/-- **Any other stream is received in different ways.** -/
theorem exists_of_not_steady {stream : List α} (h : ¬ Steady R stream) :
    ∃ chunks chunks', chunks.flatten = stream ∧ chunks'.flatten = stream ∧
      (events R [] chunks).length ≠ (events R [] chunks').length := by
  obtain ⟨hnone, hafter⟩ := not_or.1 h
  rw [not_not] at hnone
  have hone : events R [] [stream] = [none] := by
    have hscan : scan R ([] ++ stream) = ((scan R stream).1, none) := Prod.ext rfl hnone
    rw [events_one, feed_of_bad hscan]
  by_cases hframes : (scan R stream).1 = []
  · -- something bad stands first, and something can be read after it
    have hbad : R.read stream = .bad := scan_eq_nil_none.1 (Prod.ext hframes hnone)
    have hlater : ∃ q r, stream = q ++ r ∧ R.read q = .bad ∧ R.read r ≠ .wait := by
      by_contra hno
      refine hafter ⟨hbad, fun q r hqr hq => ?_⟩
      by_contra hr
      exact hno ⟨q, r, hqr, hq, hr⟩
    obtain ⟨q, r, rfl, hq, hr⟩ := hlater
    refine ⟨[q ++ r], [q, r], by simp, by simp, ?_⟩
    rw [hone, events_two, feed_of_bad (scan_bad (show R.read ([] ++ q) = .bad from hq)), List.length_append]
    have hpos := List.length_pos_of_ne_nil (feed_ne_nil hr)
    simp only [List.length_cons, List.length_nil]
    omega
  · -- the frames before it are lost with it in one chunk
    have hscan : scan R stream = ((scan R stream).1, none) := Prod.ext rfl hnone
    obtain ⟨q, r, hqr, hq, hr⟩ := exists_of_scan_bad hscan
    refine ⟨[stream], [q, r], by simp, by simp [hqr], ?_⟩
    have hfirst : scan R ([] ++ q) = ((scan R stream).1, some []) := hq
    rw [hone, events_two, feed_of_scan hfirst, feed_of_bad (scan_bad (show R.read ([] ++ r) = .bad from hr)),
      List.length_append, List.length_map]
    have hpos := List.length_pos_of_ne_nil hframes
    simp only [List.length_cons, List.length_nil]
    omega

end Framing
