import Mathlib.Order.Bounds.Basic
import SupportApi.RateLimit.Log

namespace SupportApi.RateLimit

open Lib

def oldest (config : RateLimitConfig) (earlier : List Request) (r : Request) : Time :=
  ((inWindow config.windowMs (earlier ++ [r]) r.now).map Request.now).headD r.now

/-- When the earliest call has left the window, in whole seconds from `r`. -/
def advised (config : RateLimitConfig) (earlier : List Request) (r : Request) : Time :=
  r.now + 1000 * ceilSeconds (oldest config earlier r + config.windowMs - r.now)

variable {config : RateLimitConfig}

theorem oldest_isLeast (hwindow : 0 < config.windowMs) {earlier : List Request} {r : Request}
    (h : Sequential Request.id (earlier ++ [r])) :
    IsLeast {t | ∃ r' ∈ inWindow config.windowMs (earlier ++ [r]) r.now, r'.now = t}
      (oldest config earlier r) := by
  have hself : r ∈ inWindow config.windowMs (earlier ++ [r]) r.now := by
    rw [inWindow_concat hwindow]
    exact List.mem_append_right _ (List.mem_singleton_self r)
  have htimes : (inWindow config.windowMs (earlier ++ [r]) r.now).Pairwise
      fun r r' => r.now ≤ r'.now :=
    h.times.sublist List.filter_sublist
  unfold oldest
  cases hlist : inWindow config.windowMs (earlier ++ [r]) r.now with
  | nil =>
    rw [hlist] at hself
    cases hself
  | cons first rest =>
    rw [hlist, List.pairwise_cons] at htimes
    refine ⟨⟨first, List.mem_cons_self, rfl⟩, ?_⟩
    rintro t ⟨r', hr', rfl⟩
    rcases List.mem_cons.mp hr' with rfl | hr'
    · exact Int.le_refl _
    · exact htimes.1 r' hr'

theorem advised_eq (hwindow : 0 < config.windowMs) {earlier : List Request} {r : Request}
    (h : Sequential Request.id (earlier ++ [r]))
    (hrejected : (checkLimit config (afterAll config .absent earlier) r).1.allowed = false) :
    r.now + 1000 * (checkLimit config (afterAll config .absent earlier) r).1.retryAfter =
      advised config earlier r := by
  obtain ⟨first, hleast, hretry⟩ := retryAfter_eq hwindow h hrejected
  rw [hretry, hleast.unique (oldest_isLeast hwindow h), advised]

/-- A client that is rejected and comes back when it was told to is let in exactly when the calls
that are still in its window then, the rejected ones included, are fewer than the limit. -/
theorem retry_allowed_iff (hwindow : 0 < config.windowMs) {earlier since : List Request}
    {r next : Request} (h : Sequential Request.id ((earlier ++ r :: since) ++ [next]))
    (hrejected : (checkLimit config (afterAll config .absent earlier) r).1.allowed = false)
    (hnext : next.now =
      r.now + 1000 * (checkLimit config (afterAll config .absent earlier) r).1.retryAfter) :
    (checkLimit config (afterAll config .absent (earlier ++ r :: since)) next).1.allowed = true ↔
      (earlier ++ r :: since).countP
        (fun s => advised config earlier r - config.windowMs < s.now) < config.limit := by
  have hprefix : (earlier ++ [r]).Sublist ((earlier ++ r :: since) ++ [next]) := by
    rw [List.append_assoc]
    exact (List.Sublist.refl earlier).append (List.singleton_sublist.mpr (List.mem_cons_self))
  have htime := h.last.2.1
  rw [advised_eq hwindow (h.sublist hprefix) hrejected] at hnext
  rw [allowed_iff hwindow h, inWindow_of_le htime, hnext, List.countP_eq_length_filter]

namespace Sample

def first : Request := ⟨0, "k3f"⟩
def second : Request := ⟨1000, "p9x"⟩

end Sample

theorem retry_allowed_iff_soon :
    (checkLimit ⟨3000, 1⟩ (afterAll ⟨3000, 1⟩ .absent [Sample.first, ⟨10, "p9x"⟩])
      ⟨3010, "q2m"⟩).1.allowed = true :=
  (@retry_allowed_iff ⟨3000, 1⟩ (by decide) [Sample.first] [] ⟨10, "p9x"⟩ ⟨3010, "q2m"⟩
    ⟨by decide, by decide⟩ rfl rfl).mpr (by decide)

theorem retry_rejected : ¬∀ (config : RateLimitConfig) (earlier same : List Request)
    (r next : Request), 0 < config.windowMs → 1 ≤ config.limit →
    Sequential Request.id ((earlier ++ r :: same) ++ [next]) → (∀ s ∈ same, s.now = r.now) →
    (checkLimit config (afterAll config .absent earlier) r).1.allowed = false →
    next.now = r.now + 1000 * (checkLimit config (afterAll config .absent earlier) r).1.retryAfter →
    (checkLimit config (afterAll config .absent (earlier ++ r :: same)) next).1.allowed = true := by
  intro h
  have hallowed := h ⟨3000, 1⟩ [Sample.first] [] Sample.second ⟨3000, "q2m"⟩ (by decide) (by decide)
    ⟨by decide, by decide⟩ (by simp) rfl rfl
  exact absurd hallowed (by decide)

end SupportApi.RateLimit
