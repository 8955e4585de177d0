import SupportApi.Analytics.Limiter
import SupportApi.RateLimit.Log

namespace SupportApi.Analytics.Limiter

open Lib RateLimit

variable {config : RateLimitConfig} {earlier : List Request} {r : Request}

theorem pipeline_afterAll (hwindow : 0 < config.windowMs)
    (h : Sequential requestId (earlier ++ [r])) :
    (pipeline config.windowMs (afterAll config.windowMs config.limit .absent earlier) r).1 =
      (inWindow config.windowMs earlier r.now).length := by
  obtain ⟨hearlier, htime, hid⟩ := h.last
  rw [pipeline_eq (holds_afterAll hwindow hearlier) htime hid]

/-- After any calls, both limiters let the next one through or neither does; they leave it the same
rest, and neither sends it away for longer than the service says. -/
theorem limiters_agree (hwindow : 0 < config.windowMs) (h : Sequential Request.id (earlier ++ [r]))
    (hids : Sequential requestId (earlier ++ [r])) :
    let visited := (checkLimit config (RateLimit.afterAll config .absent earlier) r).1
    let served := (checkSlidingWindowRateLimit config.windowMs config.limit
      (afterAll config.windowMs config.limit .absent earlier) r).1
    visited.allowed = served.allowed ∧ visited.remaining = served.remaining ∧
      visited.retryAfter ≤ ceilSeconds (served.resetAt - r.now) := by
  have hcount := currentCount_afterAll hwindow h
  have hserved := pipeline_afterAll hwindow hids
  refine ⟨?_, ?_, ?_⟩
  · simp only [checkLimit, result, checkSlidingWindowRateLimit, hcount, hserved]
  · simp only [checkLimit, result, checkSlidingWindowRateLimit, hcount, hserved]
  · have hreset : (checkSlidingWindowRateLimit config.windowMs config.limit
        (afterAll config.windowMs config.limit .absent earlier) r).1.resetAt =
          r.now + config.windowMs := rfl
    rw [hreset, Int.add_comm, Int.add_sub_cancel]
    cases hallowed : (checkLimit config (RateLimit.afterAll config .absent earlier) r).1.allowed with
    | true =>
      simp only [checkLimit, result] at hallowed ⊢
      rw [if_pos (of_decide_eq_true hallowed)]
      exact ceilSeconds_mono hwindow.le
    | false =>
      obtain ⟨oldest, hleast, hretry⟩ := retryAfter_eq hwindow h hallowed
      obtain ⟨r', hr', rfl⟩ := hleast.1
      have hin : r.now - config.windowMs < r'.now ∧ r'.now ≤ r.now := by
        simpa using (List.mem_filter.mp hr').2
      rw [hretry]
      apply ceilSeconds_mono
      exact Int.sub_left_le_of_le_add (Int.add_le_add_right hin.2 _)

theorem limiters_agree_third :
    let earlier : List Request := [⟨0, "31"⟩, ⟨600, "52"⟩]
    (checkLimit ⟨1000, 2⟩ (RateLimit.afterAll ⟨1000, 2⟩ .absent earlier) ⟨700, "17"⟩).1.allowed =
      (checkSlidingWindowRateLimit 1000 2 (afterAll 1000 2 .absent earlier) ⟨700, "17"⟩).1.allowed :=
  (@limiters_agree ⟨1000, 2⟩ [⟨0, "31"⟩, ⟨600, "52"⟩] ⟨700, "17"⟩ (by decide)
    ⟨by decide, by decide⟩ ⟨by decide, by decide⟩).1

end SupportApi.Analytics.Limiter
