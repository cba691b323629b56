import ApiTesting.Lib.Keyed
import Mathlib.Algebra.Order.Monoid.Unbundled.Pow
import Mathlib.Algebra.Order.Monoid.Defs

/-! A lease is a key that expires: its holder renews it round by round, and whoever looks the
key up takes the holder for gone once it has expired. What the rounds of the holder have to
keep to so that the key is there at all times, where some of them miss the renewal. -/

namespace Lease

open Keyed

variable {κ T : Type*} [DecidableEq κ] [LinearOrder T]

/-- The keys, with the time each expires at. -/
abbrev Keys (κ T : Type*) := Dict κ T

def live (keys : Keys κ T) (k : κ) (now : T) : Bool := (keys.lookup k).any fun expiry => now ≤ expiry

def renew [Add T] (ttl : T) (k : κ) (now : T) (keys : Keys κ T) : Keys κ T := keys.put k (now + ttl)

def revoke (k : κ) (keys : Keys κ T) : Keys κ T := keys.erase k

section
variable {keys : Keys κ T} {k j : κ} {now e : T}

theorem live_iff : live keys k now = true ↔ ∃ e, keys.lookup k = some e ∧ now ≤ e := by
  simp only [live, Option.any_eq_true, decide_eq_true_eq]

theorem live_eq_false (h : ∀ e, keys.lookup k = some e → e < now) : live keys k now = false := by
  rw [Bool.eq_false_iff, Ne, live_iff]
  rintro ⟨e, he, hle⟩
  exact (h e he).not_ge hle

omit [LinearOrder T]

theorem lookup_renew [Add T] (ttl : T) :
    (renew ttl j now keys).lookup k = if k = j then some (now + ttl) else keys.lookup k :=
  Dict.lookup_put _ _ _ _

theorem lookup_revoke : (revoke j keys).lookup k = if k = j then none else keys.lookup k :=
  Dict.lookup_erase _ _ _

end

/-- A round of the holder: when it began, whether it has renewed the key, and how many rounds
right before it have not. -/
structure Round (T : Type*) where
  began : T
  renewed : Bool
  missed : ℕ

namespace Round

def next (r : Round T) (now : T) : Round T := ⟨now, false, if r.renewed then 0 else r.missed + 1⟩

def renew (r : Round T) : Round T := { r with renewed := true }

/-- How many rounds began since the one that renewed the key. -/
def behind (r : Round T) : ℕ := if r.renewed then 0 else r.missed + 1

omit [LinearOrder T] in
theorem behind_next (r : Round T) (now : T) : (r.next now).behind = r.behind + 1 := by
  cases hr : r.renewed <;> simp [behind, next, hr]

variable [AddCommMonoid T] [IsOrderedCancelAddMonoid T] {r : Round T} {ttl span now e : T}

/-- The key expires no sooner than a time to live after the beginning of the round that renewed
it, where no round lasts longer than `span`. -/
def Covers (ttl span : T) (r : Round T) (e : T) : Prop := r.began + ttl ≤ e + r.behind • span

omit [IsOrderedCancelAddMonoid T] in
theorem covers_renew (h : r.began + ttl ≤ e) : r.renew.Covers ttl span e := by
  simpa [Covers, behind, Round.renew] using h

theorem Covers.next (h : r.Covers ttl span e) (hnow : now ≤ r.began + span) : (r.next now).Covers ttl span e := by
  rw [Covers] at h ⊢
  calc (r.next now).began + ttl
      ≤ r.began + span + ttl := by gcongr; exact hnow
    _ = r.began + ttl + span := add_right_comm _ _ _
    _ ≤ e + r.behind • span + span := by gcongr
    _ = e + (r.next now).behind • span := by rw [behind_next, succ_nsmul, add_assoc]

/-- The key is there as long as the rounds since its renewal, and what the current one has taken,
fit into the time to live. -/
theorem Covers.lt {n : ℕ} {since : T} (h : r.Covers ttl span e) (hspan : 0 ≤ span) (hn : r.behind ≤ n)
    (hnow : now ≤ r.began + since) (hfit : since + n • span < ttl) : now < e := by
  have hsum : now + n • span < e + n • span := by
    calc now + n • span
        ≤ r.began + since + n • span := by gcongr
      _ = r.began + (since + n • span) := add_assoc _ _ _
      _ < r.began + ttl := by gcongr
      _ ≤ e + r.behind • span := h
      _ ≤ e + n • span := by
        have := nsmul_le_nsmul_left hspan hn
        gcongr
  exact lt_of_add_lt_add_right hsum

end Round

end Lease
