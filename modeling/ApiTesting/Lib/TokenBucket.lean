import Mathlib.Algebra.Order.Ring.Rat
import Mathlib.Data.List.Pairwise
import Mathlib.Tactic.Linarith
import Mathlib.Tactic.Ring
import Mathlib.Tactic.NormNum

/-! The token bucket that is refilled when it is looked at. A bucket keeps the
tokens it had at its last request and the time of that request; one that does not
exist is full. All that matters of a bucket is its level from now on, so the laws
are about levels: how fast one rises, what a refused request leaves of it, and how
much can be granted out of it. -/

namespace TokenBucket

variable {K : Type*}

structure Settings (K : Type*) where
  capacity : K
  rate : K

structure Bucket (K : Type*) where
  tokens : K
  stamp : K

structure Request (K : Type*) where
  amount : K
  time : K

/-- Buckets that are never given up. -/
def forever (_ _ : K) : Bool := true

/-- What a request finds of a bucket. `kept` says of the time of its last request and
the present whether it has not been given up. -/
def found (kept : K → K → Bool) (b : Option (Bucket K)) (now : K) : Option (Bucket K) :=
  b.filter fun c => kept c.stamp now

section
variable {kept : K → K → Bool} {b : Option (Bucket K)}

@[simp] theorem found_none (now : K) : found kept none now = none := rfl

@[simp] theorem found_forever (now : K) : found forever b now = b := by
  cases b <;> rfl

theorem found_of_kept {now : K} (h : ∀ c ∈ b, kept c.stamp now = true) : found kept b now = b := by
  cases b with
  | none => rfl
  | some c => simp [found, h c rfl]

theorem found_of_given_up {c : Bucket K} {now : K} (h : kept c.stamp now = false) : found kept (some c) now = none := by
  simp [found, h]

end

variable [CommRing K] [LinearOrder K]

/-- What is in the bucket at `now`. -/
def level (s : Settings K) (b : Option (Bucket K)) (now : K) : K :=
  match b with
  | none => s.capacity
  | some b => min s.capacity (b.tokens + max 0 (now - b.stamp) * s.rate)

def granted (s : Settings K) (b : Option (Bucket K)) (r : Request K) : Bool := r.amount ≤ level s b r.time

/-- What a request takes. -/
def taken (s : Settings K) (b : Option (Bucket K)) (r : Request K) : K :=
  if granted s b r then r.amount else 0

def next (s : Settings K) (b : Option (Bucket K)) (r : Request K) : Bucket K :=
  ⟨level s b r.time - taken s b r, r.time⟩

section
variable (s : Settings K) (kept : K → K → Bool)

/-- The answers to requests made one after the other. -/
def answers : Option (Bucket K) → List (Request K) → List Bool
  | _, [] => []
  | b, r :: rs => granted s (found kept b r.time) r :: answers (some (next s (found kept b r.time) r)) rs

/-- The bucket they leave. -/
def after : Option (Bucket K) → List (Request K) → Option (Bucket K)
  | b, [] => b
  | b, r :: rs => after (some (next s (found kept b r.time) r)) rs

end

/-- What answered requests take from `start` to `stop`. -/
def takenBetween (start stop : K) : List (Request K × Bool) → K
  | [] => 0
  | (r, granted) :: rest =>
    (if granted ∧ start ≤ r.time ∧ r.time ≤ stop then r.amount else 0) + takenBetween start stop rest

section
variable {s : Settings K} {kept : K → K → Bool} {b c : Option (Bucket K)} {rs : List (Request K)}

theorem level_le (now : K) : level s b now ≤ s.capacity := by
  cases b with
  | none => exact le_rfl
  | some b => exact min_le_left _ _

theorem taken_nonneg {r : Request K} (hr : 0 ≤ r.amount) : 0 ≤ taken s b r := by
  unfold taken
  split
  · exact hr
  · exact le_rfl

theorem takenBetween_late {start stop : K} {history : List (Request K × Bool)}
    (h : ∀ p ∈ history, stop < p.1.time) : takenBetween start stop history = 0 := by
  induction history with
  | nil => rfl
  | cons p history ih =>
    have hp := h p List.mem_cons_self
    rw [takenBetween, ih fun q hq => h q (List.mem_cons_of_mem p hq),
      if_neg fun hin => absurd hin.2.2 (not_le.2 hp), add_zero]

/-- Of a bucket, requests only see what the first of them finds in it. -/
theorem answers_congr
    (h : ∀ r ∈ rs.head?, level s (found kept b r.time) r.time = level s (found kept c r.time) r.time) :
    answers s kept b rs = answers s kept c rs := by
  cases rs with
  | nil => rfl
  | cons r rs =>
    have hl := h r rfl
    have hg : granted s (found kept b r.time) r = granted s (found kept c r.time) r := by
      rw [granted, granted, hl]
    have hn : next s (found kept b r.time) r = next s (found kept c r.time) r := by
      rw [next, next, taken, taken, hl, hg]
    rw [answers, answers, hg, hn]

/-- A bucket that is asked for often enough is never given up. -/
theorem run_of_frequent (hb : ∀ c ∈ b, ∀ r ∈ rs.head?, kept c.stamp r.time = true)
    (hrs : rs.IsChain fun r q => kept r.time q.time = true) :
    answers s kept b rs = answers s forever b rs ∧ after s kept b rs = after s forever b rs := by
  induction rs generalizing b with
  | nil => exact ⟨rfl, rfl⟩
  | cons r rs ih =>
    have hfound : found kept b r.time = found forever b r.time := by
      rw [found_forever, found_of_kept fun c hc => hb c hc r rfl]
    have hrest := @ih (some (next s (found forever b r.time) r)) (by
      intro c hc q hq
      obtain rfl := Option.some.inj hc
      cases rs with
      | nil => cases hq
      | cons q' rs =>
        obtain rfl := Option.some.inj hq
        exact (List.isChain_cons_cons.1 hrs).1) (List.isChain_of_isChain_cons hrs)
    rw [answers, answers, after, after, hfound, hrest.1, hrest.2]
    exact ⟨rfl, rfl⟩

end

section
variable [IsStrictOrderedRing K] {s : Settings K} {b : Option (Bucket K)}

/-- A level rises no faster than the rate. -/
theorem level_le_add (hrate : 0 ≤ s.rate) {t u : K} (h : t ≤ u) :
    level s b u ≤ level s b t + s.rate * (u - t) := by
  have hrise : 0 ≤ s.rate * (u - t) := mul_nonneg hrate (sub_nonneg.2 h)
  cases b with
  | none => exact le_add_of_nonneg_right hrise
  | some b =>
    have helapsed : max 0 (u - b.stamp) ≤ max 0 (t - b.stamp) + (u - t) := by
      rcases le_total 0 (t - b.stamp) with ht | ht
      · rw [max_eq_right ht, max_eq_right (by linarith)]
        linarith
      · rw [max_eq_left ht]
        exact max_le (by linarith) (by linarith)
    have hfill := mul_le_mul_of_nonneg_right helapsed hrate
    simp only [level]
    rcases le_total s.capacity (b.tokens + max 0 (t - b.stamp) * s.rate) with ht | ht
    · rw [min_eq_left ht]
      exact (min_le_left _ _).trans (le_add_of_nonneg_right hrise)
    · rw [min_eq_right ht]
      refine (min_le_right _ _).trans ?_
      linarith

/-- Refilling in two steps is refilling in one. -/
theorem level_of_refilled (hrate : 0 ≤ s.rate) {t u : K} (hb : ∀ c ∈ b, c.stamp ≤ t) (h : t ≤ u) :
    level s (some ⟨level s b t, t⟩) u = level s b u := by
  have hrise : 0 ≤ (u - t) * s.rate := mul_nonneg (sub_nonneg.2 h) hrate
  cases b with
  | none =>
    simp only [level, max_eq_right (sub_nonneg.2 h)]
    exact min_eq_left (le_add_of_nonneg_right hrise)
  | some c =>
    have hstamp := hb c rfl
    have hsplit : c.tokens + (u - c.stamp) * s.rate = c.tokens + (t - c.stamp) * s.rate + (u - t) * s.rate := by
      ring
    simp only [level, max_eq_right (sub_nonneg.2 h), max_eq_right (sub_nonneg.2 hstamp),
      max_eq_right (sub_nonneg.2 (hstamp.trans h))]
    rw [hsplit]
    rcases le_total s.capacity (c.tokens + (t - c.stamp) * s.rate) with ht | ht
    · rw [min_eq_left ht, min_eq_left (by linarith), min_eq_left (by linarith)]
    · rw [min_eq_right ht]

/-- A refused request leaves every later level as it was. -/
theorem level_of_refused (hrate : 0 ≤ s.rate) {r : Request K} (hr : granted s b r = false)
    (hb : ∀ c ∈ b, c.stamp ≤ r.time) {u : K} (h : r.time ≤ u) :
    level s (some (next s b r)) u = level s b u := by
  have hnext : next s b r = ⟨level s b r.time, r.time⟩ := by simp [next, taken, hr]
  rw [hnext, level_of_refilled hrate hb h]

/-- A refused request may as well not have been made. -/
theorem answers_eraseIdx (hrate : 0 ≤ s.rate) {rs : List (Request K)}
    (hord : rs.Pairwise fun r q => r.time ≤ q.time) (hb : ∀ c ∈ b, ∀ r ∈ rs, c.stamp ≤ r.time) {i : ℕ}
    (h : (answers s forever b rs)[i]? = some false) :
    answers s forever b (rs.eraseIdx i) = (answers s forever b rs).eraseIdx i := by
  induction rs generalizing b i with
  | nil => simp [answers] at h
  | cons r rs ih =>
    rw [List.pairwise_cons] at hord
    rw [answers, found_forever] at h ⊢
    cases i with
    | zero =>
      have hr : granted s b r = false := by simpa using h
      refine answers_congr fun q hq => ?_
      have hq : q ∈ rs := List.mem_of_mem_head? hq
      rw [found_forever, found_forever,
        level_of_refused hrate hr (fun c hc => hb c hc r List.mem_cons_self) (hord.1 q hq)]
    | succ i =>
      rw [List.eraseIdx_cons_succ, List.eraseIdx_cons_succ, answers, found_forever]
      rw [List.getElem?_cons_succ] at h
      rw [ih hord.2 (fun c hc q hq => ?_) h]
      obtain rfl := Option.some.inj hc
      exact hord.1 q hq

/-- What is in every bucket once requests take none below zero. -/
def Sound (s : Settings K) (b : Option (Bucket K)) : Prop := ∀ c ∈ b, 0 ≤ c.tokens ∧ c.tokens ≤ s.capacity

theorem level_nonneg (hcap : 0 ≤ s.capacity) (hrate : 0 ≤ s.rate) (hb : Sound s b) (now : K) :
    0 ≤ level s b now := by
  cases b with
  | none => exact hcap
  | some c => exact le_min hcap (add_nonneg (hb c rfl).1 (mul_nonneg (le_max_left _ _) hrate))

theorem taken_le_level (hcap : 0 ≤ s.capacity) (hrate : 0 ≤ s.rate) (hb : Sound s b) (r : Request K) :
    taken s b r ≤ level s b r.time := by
  unfold taken granted
  split
  · rename_i h
    exact of_decide_eq_true h
  · exact level_nonneg hcap hrate hb r.time

theorem sound_next (hcap : 0 ≤ s.capacity) (hrate : 0 ≤ s.rate) (hb : Sound s b) {r : Request K} (hr : 0 ≤ r.amount) :
    Sound s (some (next s b r)) := by
  intro c hc
  obtain rfl := Option.some.inj hc
  exact ⟨sub_nonneg.2 (taken_le_level hcap hrate hb r),
    (sub_le_self _ (taken_nonneg hr)).trans (level_le r.time)⟩

theorem sound_after (hcap : 0 ≤ s.capacity) (hrate : 0 ≤ s.rate) (hb : Sound s b) {rs : List (Request K)}
    (hrs : ∀ r ∈ rs, 0 ≤ r.amount) : Sound s (after s forever b rs) := by
  induction rs generalizing b with
  | nil => exact hb
  | cons r rs ih =>
    rw [after, found_forever]
    exact ih (sound_next hcap hrate hb (hrs r List.mem_cons_self)) fun q hq => hrs q (List.mem_cons_of_mem r hq)

/-- From a time before all the requests on, they take no more than the level there
and what comes in afterwards. -/
theorem takenBetween_le_level (hcap : 0 ≤ s.capacity) (hrate : 0 ≤ s.rate) (hb : Sound s b)
    {rs : List (Request K)} (hrs : ∀ r ∈ rs, 0 ≤ r.amount) (hord : rs.Pairwise fun r q => r.time ≤ q.time)
    {start stop base : K} (hbase : ∀ r ∈ rs, base ≤ r.time) (hstop : base ≤ stop) :
    takenBetween start stop (rs.zip (answers s forever b rs)) ≤ level s b base + s.rate * (stop - base) := by
  induction rs generalizing b base with
  | nil => exact add_nonneg (level_nonneg hcap hrate hb base) (mul_nonneg hrate (sub_nonneg.2 hstop))
  | cons r rs ih =>
    rw [List.pairwise_cons] at hord
    have hr := hrs r List.mem_cons_self
    have hrest : ∀ q ∈ rs, 0 ≤ q.amount := fun q hq => hrs q (List.mem_cons_of_mem r hq)
    rw [answers, found_forever, List.zip_cons_cons, takenBetween]
    rcases le_or_gt r.time stop with hin | hout
    · have hhead : (if granted s b r ∧ start ≤ r.time ∧ r.time ≤ stop then r.amount else 0) ≤ taken s b r := by
        split
        · rename_i h
          exact le_of_eq (if_pos h.1).symm
        · exact taken_nonneg hr
      have htail := ih (sound_next hcap hrate hb hr) hrest hord.2 hord.1 hin
      have hnext : level s (some (next s b r)) r.time ≤ level s b r.time - taken s b r := by
        simp [level, next]
      have hrise := level_le_add (b := b) hrate (hbase r List.mem_cons_self)
      linarith
    · have hlate : takenBetween start stop (rs.zip (answers s forever (some (next s b r)) rs)) = 0 := by
        refine takenBetween_late fun p hp => hout.trans_le ?_
        exact hord.1 p.1 (List.of_mem_zip hp).1
      rw [hlate, if_neg fun hin => absurd hin.2.2 (not_le.2 hout), add_zero]
      exact add_nonneg (level_nonneg hcap hrate hb base) (mul_nonneg hrate (sub_nonneg.2 hstop))

/-- In no window is more taken than a full bucket and what comes in meanwhile. -/
theorem takenBetween_le (hcap : 0 ≤ s.capacity) (hrate : 0 ≤ s.rate) (hb : Sound s b)
    {rs : List (Request K)} (hrs : ∀ r ∈ rs, 0 ≤ r.amount) (hord : rs.Pairwise fun r q => r.time ≤ q.time)
    {start stop : K} (h : start ≤ stop) :
    takenBetween start stop (rs.zip (answers s forever b rs)) ≤ s.capacity + s.rate * (stop - start) := by
  induction rs generalizing b with
  | nil => exact add_nonneg hcap (mul_nonneg hrate (sub_nonneg.2 h))
  | cons r rs ih =>
    rcases lt_or_ge r.time start with hearly | hin
    · rw [List.pairwise_cons] at hord
      rw [answers, found_forever, List.zip_cons_cons, takenBetween,
        if_neg fun h => absurd h.2.1 (not_le.2 hearly), zero_add]
      exact ih (sound_next hcap hrate hb (hrs r List.mem_cons_self)) (fun q hq => hrs q (List.mem_cons_of_mem r hq))
        hord.2
    · have hall : ∀ q ∈ r :: rs, start ≤ q.time := by
        intro q hq
        rcases List.mem_cons.1 hq with rfl | hq
        · exact hin
        · exact hin.trans ((List.pairwise_cons.1 hord).1 q hq)
      exact (takenBetween_le_level hcap hrate hb hrs hord hall h).trans (add_le_add_left (level_le start) _)

/-- A full bucket is what a bucket has become by the time it is given up. -/
theorem level_found (hrate : 0 ≤ s.rate) {now : K}
    (hb : ∀ c ∈ b, min 0 s.capacity ≤ c.tokens ∧
      (kept c.stamp now = false → s.capacity ≤ s.rate * (now - c.stamp))) :
    level s (found kept b now) now = level s b now := by
  cases b with
  | none => rfl
  | some c =>
    obtain ⟨htokens, hfill⟩ := hb c rfl
    cases h : kept c.stamp now with
    | true => rw [found_of_kept fun d hd => by obtain rfl := Option.some.inj hd; exact h]
    | false =>
      have hgrown := mul_le_mul_of_nonneg_right (le_max_right 0 (now - c.stamp)) hrate
      have hmore : 0 ≤ max 0 (now - c.stamp) * s.rate := mul_nonneg (le_max_left _ _) hrate
      have hfull := hfill h
      rw [found_of_given_up h]
      simp only [level]
      refine (min_eq_left ?_).symm
      rcases le_total 0 s.capacity with hc | hc
      · rw [min_eq_left hc] at htokens
        linarith
      · rw [min_eq_right hc] at htokens
        linarith

/-- No request leaves fewer tokens than none, or than an empty bucket of this capacity. -/
theorem min_le_tokens_next (hrate : 0 ≤ s.rate) (hb : ∀ c ∈ b, min 0 s.capacity ≤ c.tokens) (r : Request K) :
    min 0 s.capacity ≤ (next s b r).tokens := by
  have hlevel : min 0 s.capacity ≤ level s b r.time := by
    cases b with
    | none => exact min_le_right _ _
    | some c =>
      refine le_min (min_le_right _ _) ((hb c rfl).trans ?_)
      exact le_add_of_nonneg_right (mul_nonneg (le_max_left _ _) hrate)
  unfold next taken granted
  split
  · rename_i h
    exact (min_le_left _ _).trans (sub_nonneg.2 (of_decide_eq_true h))
  · rwa [sub_zero]

/-- Giving buckets up cannot be seen where one is full by then, at the times there are. -/
theorem answers_expiring (hrate : 0 ≤ s.rate) (times : Set K)
    (hfill : ∀ t ∈ times, ∀ u ∈ times, kept t u = false → s.capacity ≤ s.rate * (u - t))
    (hb : ∀ c ∈ b, min 0 s.capacity ≤ c.tokens ∧ c.stamp ∈ times) {rs : List (Request K)}
    (hrs : ∀ r ∈ rs, r.time ∈ times) : answers s kept b rs = answers s forever b rs := by
  induction rs generalizing b with
  | nil => rfl
  | cons r rs ih =>
    have htime := hrs r List.mem_cons_self
    have hl : level s (found kept b r.time) r.time = level s b r.time :=
      level_found hrate fun c hc => ⟨(hb c hc).1, hfill c.stamp (hb c hc).2 r.time htime⟩
    have hg : granted s (found kept b r.time) r = granted s b r := by rw [granted, granted, hl]
    have hn : next s (found kept b r.time) r = next s b r := by rw [next, next, taken, taken, hl, hg]
    rw [answers, answers, found_forever, hg, hn, ih _ fun q hq => hrs q (List.mem_cons_of_mem r hq)]
    intro c hc
    obtain rfl := Option.some.inj hc
    exact ⟨min_le_tokens_next hrate (fun c hc => (hb c hc).1) r, htime⟩

/-- It is seen otherwise: the bucket is emptied, and emptied again when it is given up. -/
theorem answers_expiring_ne {start stop : K} (h : start ≤ stop) (hgone : kept start stop = false)
    (hshort : s.rate * (stop - start) < s.capacity) :
    answers s kept none [⟨s.capacity, start⟩, ⟨s.capacity, stop⟩] ≠
      answers s forever none [⟨s.capacity, start⟩, ⟨s.capacity, stop⟩] := by
  have hempty : next s none ⟨s.capacity, start⟩ = ⟨0, start⟩ := by simp [next, taken, granted, level]
  have hmin : min s.capacity (0 + max 0 (stop - start) * s.rate) < s.capacity := by
    rw [max_eq_right (sub_nonneg.2 h), zero_add, mul_comm]
    exact (min_le_right _ _).trans_lt hshort
  have hnew : found kept (some (⟨0, start⟩ : Bucket K)) stop = none := found_of_given_up hgone
  intro heq
  simp only [answers, found_none, found_forever, hempty, hnew, granted, level, le_refl, decide_true,
    List.cons.injEq, and_true, true_and] at heq
  exact absurd (of_decide_eq_true heq.symm) (not_le.2 hmin)

end

end TokenBucket
