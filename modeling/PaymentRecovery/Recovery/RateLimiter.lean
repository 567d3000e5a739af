import PaymentRecovery.Lib.SlidingWindow
import Mathlib.Data.Rat.Defs
import Mathlib.Algebra.Order.Ring.Rat

/-!
# The rate limit of the playground

A limiter keeps the readings at which it let a run through and forgets those that
have left the window. The queue is all it needs to know of its past: it holds what
is recent of everything that was ever let through.
-/

namespace PaymentRecovery.Recovery

open PaymentRecovery.Lib.SlidingWindow

/-- Sliding-window limit on playground runs for the whole process. -/
structure RateLimiter where
  max : Int
  window : ℚ
  hits : List ℚ

namespace RateLimiter

def new (maxRuns : Int) (windowSeconds : ℚ) : RateLimiter := ⟨maxRuns, windowSeconds, []⟩

/-- `allow`, with what the clock reads. -/
def allow (limiter : RateLimiter) (now : ℚ) : Bool × RateLimiter :=
  let hits := limiter.hits.dropWhile fun hit => limiter.window < now - hit
  if limiter.max ≤ hits.length then (false, { limiter with hits := hits })
  else (true, { limiter with hits := hits ++ [now] })

/-- The calls at these readings, one at a time, with their answers. -/
def calls (limiter : RateLimiter) : List ℚ → List (ℚ × Bool)
  | [] => []
  | now :: rest =>
    let (allowed, limiter) := limiter.allow now
    (now, allowed) :: limiter.calls rest

end RateLimiter

/-- The readings of the calls that were allowed. -/
def allowedAt (calls : List (ℚ × Bool)) : List ℚ :=
  (calls.filter Prod.snd).map Prod.fst

/-! ## What the queue knows -/

/-- The limiter has let through what is in `log`, the last call was no later than `last`, and the
queue holds what was recent then. -/
structure Tracks (limiter : RateLimiter) (log : List ℚ) (last : ℚ) : Prop where
  sorted : log.Pairwise (· ≤ ·)
  past : ∀ t ∈ log, t ≤ last
  hits : limiter.hits = log.filter fun t => last - limiter.window ≤ t
  sparse : Sparse limiter.max.toNat limiter.window log

variable {limiter : RateLimiter} {log : List ℚ} {last now : ℚ}

theorem tracks_new (maxRuns : Int) (windowSeconds last : ℚ) :
    Tracks (.new maxRuns windowSeconds) [] last :=
  ⟨.nil, by simp, rfl, sparse_nil⟩

/-- After the stale readings are gone, the queue is the window that ends now. -/
theorem Tracks.recent (h : Tracks limiter log last) (hnow : last ≤ now) :
    (limiter.hits.dropWhile fun hit => limiter.window < now - hit) =
      window limiter.window (now - limiter.window) log := by
  have hstale : (fun hit : ℚ => decide (limiter.window < now - hit)) =
      fun hit => decide (hit < now - limiter.window) := by
    funext hit
    exact decide_eq_decide.mpr lt_sub_comm
  rw [hstale, h.hits, dropWhile_stale (h.sorted.filter _),
    window_eq_filter fun t ht => (h.past t ht).trans hnow, List.filter_filter]
  refine List.filter_congr fun t _ => ?_
  -- what is recent now was recent before
  have hbefore : last - limiter.window ≤ now - limiter.window := sub_le_sub_right hnow _
  by_cases ht : now - limiter.window ≤ t
  · simp [ht, hbefore.trans ht]
  · simp [ht]

/-- A call is refused if the window that ends now is full. -/
theorem Tracks.refused (h : Tracks limiter log last) (hnow : last ≤ now)
    (hrefused : (limiter.allow now).1 = false) :
    limiter.max ≤ (window limiter.window (now - limiter.window) log).length := by
  unfold RateLimiter.allow at hrefused
  rw [h.recent hnow] at hrefused
  by_contra hroom
  rw [if_neg hroom] at hrefused
  cases hrefused

/-- One call: the log grows by its reading if it is allowed. -/
theorem Tracks.allow (h : Tracks limiter log last) (hwindow : 0 ≤ limiter.window)
    (hnow : last ≤ now) :
    Tracks (limiter.allow now).2 (log ++ allowedAt [(now, (limiter.allow now).1)]) now := by
  have hpast : ∀ t ∈ log, t ≤ now := fun t ht => (h.past t ht).trans hnow
  unfold RateLimiter.allow
  rw [h.recent hnow]
  dsimp only
  split
  · -- refused
    refine ⟨?_, ?_, ?_, ?_⟩
    · simpa [allowedAt] using h.sorted
    · simpa [allowedAt] using hpast
    · simpa [allowedAt] using window_eq_filter hpast
    · simpa [allowedAt] using h.sparse
  · rename_i hroom
    have hlog : log ++ allowedAt [(now, true)] = log ++ [now] := rfl
    rw [hlog]
    refine ⟨?_, ?_, ?_, h.sparse.snoc hpast (by omega)⟩
    · exact List.pairwise_append.mpr ⟨h.sorted, List.pairwise_singleton _ _,
        fun t ht u hu => List.mem_singleton.mp hu ▸ hpast t ht⟩
    · rw [List.forall_mem_append, List.forall_mem_singleton]
      exact ⟨hpast, le_refl now⟩
    · show window _ _ log ++ [now] = _
      rw [window_eq_filter hpast, List.filter_append, List.filter_cons_of_pos]
      · rfl
      · simpa using hwindow

theorem allow_max (limiter : RateLimiter) (now : ℚ) : (limiter.allow now).2.max = limiter.max := by
  unfold RateLimiter.allow
  dsimp only
  split <;> rfl

theorem allow_window (limiter : RateLimiter) (now : ℚ) :
    (limiter.allow now).2.window = limiter.window := by
  unfold RateLimiter.allow
  dsimp only
  split <;> rfl

/-! ## A sequence of calls -/

theorem allowedAt_cons (call : ℚ × Bool) (rest : List (ℚ × Bool)) :
    allowedAt (call :: rest) = allowedAt [call] ++ allowedAt rest := by
  unfold allowedAt
  rw [← List.map_append, ← List.filter_append]
  rfl

/-- What is let through stays sparse, and whatever is refused is refused for a full window. -/
theorem Tracks.calls (readings : List ℚ) (h : Tracks limiter log last)
    (hwindow : 0 ≤ limiter.window) (hsorted : (last :: readings).Pairwise (· ≤ ·)) :
    Sparse limiter.max.toNat limiter.window (log ++ allowedAt (limiter.calls readings)) ∧
    ∀ before now after, limiter.calls readings = before ++ (now, false) :: after →
      limiter.max ≤
        (window limiter.window (now - limiter.window) (log ++ allowedAt before)).length := by
  induction readings generalizing limiter log last with
  | nil =>
    refine ⟨by simpa [RateLimiter.calls, allowedAt] using h.sparse, ?_⟩
    intro before now after hsplit
    simp [RateLimiter.calls] at hsplit
  | cons now rest ih =>
    obtain ⟨hlast, hrest⟩ := List.pairwise_cons.mp hsorted
    have hnow : last ≤ now := hlast now List.mem_cons_self
    have hnext := h.allow hwindow hnow
    obtain ⟨hsparse, hrefused⟩ := ih hnext ((allow_window limiter now).symm ▸ hwindow) hrest
    rw [allow_max, allow_window] at hsparse hrefused
    rw [RateLimiter.calls]
    dsimp only
    refine ⟨?_, ?_⟩
    · rw [allowedAt_cons, ← List.append_assoc]
      exact hsparse
    · intro before t after hsplit
      cases before with
      | nil =>
        -- this call itself
        injection hsplit with hhead _
        injection hhead with ht hanswer
        rw [← ht, allowedAt, List.filter_nil, List.map_nil, List.append_nil]
        exact h.refused hnow hanswer
      | cons first before =>
        injection hsplit with hhead hsplit
        rw [← hhead, allowedAt_cons, ← List.append_assoc]
        exact hrefused before t after hsplit

/-- **The rate limit, in every window.** For every limit, every window length above zero and every
sequence of readings that never goes back: no closed interval of that length holds more than
`max 0 maxRuns` allowed calls, and a call is refused only if `maxRuns` calls in the interval that
ends with it were allowed before. -/
theorem rate_limited (maxRuns : Int) (windowSeconds : ℚ) (hwindow : 0 < windowSeconds)
    (readings : List ℚ) (hsorted : readings.Pairwise (· ≤ ·)) :
    (∀ a, ((window windowSeconds a
        (allowedAt ((RateLimiter.new maxRuns windowSeconds).calls readings))).length : Int) ≤
      max 0 maxRuns) ∧
    ∀ before now after,
      (RateLimiter.new maxRuns windowSeconds).calls readings = before ++ (now, false) :: after →
      maxRuns ≤ (window windowSeconds (now - windowSeconds) (allowedAt before)).length := by
  cases readings with
  | nil =>
    refine ⟨fun a => le_max_left 0 maxRuns, fun before now after hsplit => ?_⟩
    simp [RateLimiter.calls] at hsplit
  | cons first rest =>
    have hfirst : ∀ t ∈ first :: rest, first ≤ t :=
      List.forall_mem_cons.mpr ⟨le_refl first, (List.pairwise_cons.mp hsorted).1⟩
    obtain ⟨hsparse, hrefused⟩ := (tracks_new maxRuns windowSeconds first).calls (first :: rest)
      hwindow.le (List.pairwise_cons.mpr ⟨hfirst, hsorted⟩)
    refine ⟨fun a => ?_, hrefused⟩
    have hbound := hsparse a
    rw [List.nil_append] at hbound
    have hmax : ((RateLimiter.new maxRuns windowSeconds).max.toNat : Int) = max maxRuns 0 :=
      Int.toNat_eq_max maxRuns
    rw [max_comm, ← hmax]
    exact Int.ofNat_le.mpr hbound

/-- Two runs in a minute: the third call within it is refused, and the fourth, a minute after
the first to the tick, as well. -/
theorem rate_limited_minute :
    (RateLimiter.new 2 60).calls [0, 10, 30, 60, 61] =
      [(0, true), (10, true), (30, false), (60, false), (61, true)] ∧
    2 ≤ (window 60 (60 - 60) (allowedAt [(0, true), (10, true), (30, false)])).length := by
  have hcalls : (RateLimiter.new 2 60).calls [0, 10, 30, 60, 61] =
      [(0, true), (10, true), (30, false), (60, false), (61, true)] := by decide +kernel
  have hlimited := rate_limited 2 60 (by decide) [0, 10, 30, 60, 61] (by decide)
  exact ⟨hcalls, Int.ofNat_le.mp (hlimited.2 _ 60 [(61, true)] hcalls)⟩

/-- Below zero the limit itself is no bound: there are no calls, and that is more. -/
theorem negative_limit_exceeded :
    ¬ ∀ a, ((window 60 a (allowedAt ((RateLimiter.new (-1) 60).calls []))).length : Int) ≤ -1 := by
  intro h
  exact absurd (h 0) (by decide)

end PaymentRecovery.Recovery
