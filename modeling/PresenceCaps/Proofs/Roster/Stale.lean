import PresenceCaps.Proofs.Roster.Steps

/-! Resolutions for jobs that are not live: a history without them goes the same way. -/
namespace PresenceCaps.Roster

/-- What a call gives back. -/
inductive Returned where
  | started (begun : Begun)
  | resolved (change : Option ContactChange)

def returned (r : Roster) : Call → Returned
  | .start b u => .started (r.start b u)
  | .resolve x => .resolved (r.step (.resolve x)).2

/-- Whether a call resolves a bundle for a job that is not live. -/
def isStale (r : Roster) : Call → Bool
  | .start .. => false
  | .resolve x => !r.jobs.contains x.job

/-- A call with the roster that it met, what it gave back and the roster that it left. -/
structure Entry where
  before : Roster
  call : Call
  returned : Returned
  after : Roster

def Entry.isStale (e : Entry) : Bool := e.before.isStale e.call

namespace History

/-- How the calls went, the latest one first. -/
def transcript : History → List Entry
  | [] => []
  | c :: h => ⟨roster h, c, (roster h).returned c, ((roster h).step c).1⟩ :: transcript h

/-- The calls without the stale ones. -/
def live : History → History
  | [] => []
  | c :: h => if (roster h).isStale c then live h else c :: live h

end History

theorem resolve_of_not_live {r : Roster} {x : Resolution} (h : r.jobs.get? x.job = none) :
    r.resolve x.job x.signature x.features = (r, none) := by
  obtain ⟨-, he⟩ | ⟨job, hj, -⟩ := r.resolve_cases x
  · exact he
  · rw [h] at hj
    exact absurd hj (by simp)

theorem step_of_isStale {r : Roster} {c : Call} (h : r.isStale c = true) : r.step c = (r, none) := by
  cases c with
  | start b u => exact absurd h (by simp [isStale])
  | resolve x =>
    have hnone : r.jobs.get? x.job = none := by simpa [isStale, Assoc.contains] using h
    exact resolve_of_not_live hnone

namespace History
variable (h : History)

theorem roster_live : h.live.roster = h.roster := by
  induction h with
  | nil => rfl
  | cons c h ih =>
    rw [live, roster]
    split
    · rename_i hc
      rw [ih, step_of_isStale hc]
    · rw [roster, ih]

/-- Every other call meets the roster that it met, and gives back what it gave back. -/
theorem transcript_live : h.live.transcript = h.transcript.filter fun e => !e.isStale := by
  induction h with
  | nil => rfl
  | cons c h ih =>
    rw [live, transcript]
    cases hc : (roster h).isStale c with
    | true =>
      rw [if_pos rfl, List.filter_cons_of_neg (by rw [Entry.isStale, hc]; decide), ih]
    | false =>
      rw [if_neg (by decide), List.filter_cons_of_pos (by rw [Entry.isStale, hc]; decide), transcript, roster_live, ih]

end History
end PresenceCaps.Roster
