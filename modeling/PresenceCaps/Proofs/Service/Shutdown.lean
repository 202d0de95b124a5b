import PresenceCaps.Proofs.Service.Mailbox
import PresenceCaps.Proofs.Service.Waiting

/-!
A shutdown is final. From its turn on nothing is published and nothing is learnt, whatever waited then and whatever comes
later; what was learnt before can still be read.
-/
namespace PresenceCaps
variable {σ : Type}

namespace Notifier
variable {n n' n'' : Notifier σ}

/-- Nothing was published meanwhile, whatever became of the listeners. -/
structure Silent (n n' : Notifier σ) : Prop where
  calls : n'.sinks.calls = n.sinks.calls
  sequences : n'.sequences = n.sequences
  kept : n'.feed.kept = n.feed.kept
  sent : n'.feed.sent = n.feed.sent

theorem Silent.refl (n : Notifier σ) : n.Silent n := ⟨rfl, rfl, rfl, rfl⟩

theorem Silent.trans (h : n.Silent n') (h' : n'.Silent n'') : n.Silent n'' where
  calls := h'.calls.trans h.calls
  sequences := h'.sequences.trans h.sequences
  kept := h'.kept.trans h.kept
  sent := h'.sent.trans h.sent

theorem silent_listen (n : Notifier σ) (l : Listening σ) : n.Silent (n.listen l) := by
  cases l with
  | receive id =>
    rw [listen, Feed.tryReceive]
    cases n.feed.receivers.get? id <;> exact ⟨rfl, rfl, rfl, rfl⟩
  | _ => exact ⟨rfl, rfl, rfl, rfl⟩

end Notifier

/-- What a lookup answers does not depend on who waits. -/
theorem Bundles.lookup_eq_of_standing_eq {b b' : Bundles} {t : CapabilitySignature}
    (h : (b'.get? t).map Bundle.standing = (b.get? t).map Bundle.standing) : b'.lookup t = b.lookup t := by
  have hlookup (b : Bundles) : b.lookup t =
      let e := ((b.get? t).map Bundle.standing).getD .new
      ⟨e.needsQuery, e.trust, if e.needsQuery then e.features else some e.featureSet⟩ := by
    rw [lookup]
    cases b.get? t <;> rfl
  rw [hlookup, hlookup, h]

/-- A query that is cancelled takes nothing of what its bundle is known for. -/
theorem Discovery.standing_cancelAll (d : Discovery) (t : CapabilitySignature) :
    (d.cancelAll.bundles.get? t).map Bundle.standing = (d.bundles.get? t).map Bundle.standing := by
  have hfold (b : Bundles) (pending : Assoc QueryId Query) :
      ((pending.foldl (fun b e => b.detach e.2.signature e.1) b).get? t).map Bundle.standing =
        (b.get? t).map Bundle.standing := by
    induction pending generalizing b with
    | nil => rfl
    | cons e pending ih => exact (ih _).trans (b.standing_detach e.2.signature t e.1)
  exact hfold d.bundles d.pending

namespace Service

def Move.isSend : Move σ → Bool
  | .send _ => true
  | _ => false

namespace Mailbox
variable {m₀ m : Mailbox σ}

/-- What can have become of an ended service and its queues: nothing but that listeners came and went, and that every
caller was refused. -/
structure Refusing (m₀ : Mailbox σ) (k : Nat) (m : Mailbox σ) : Prop where
  service : m.service = { m₀.service with notifier := m.service.notifier }
  silent : m₀.service.notifier.Silent m.service.notifier
  ended : m.Ended
  sent : m.sent = m₀.sent + k
  answers : m.answers = m₀.answers ++ (List.range' m₀.sent k).map refusal

theorem Ended.refusing (h : m.Ended) : m.Refusing 0 m where
  service := rfl
  silent := .refl _
  ended := h
  sent := rfl
  answers := (List.append_nil _).symm

theorem Refusing.send {k : Nat} (h : m₀.Refusing k m) (c : Command) : m₀.Refusing (k + 1) (m.send c) := by
  have hclosed : m.accepts = false := by rw [accepts, h.ended.stopped, Bool.false_and]
  have hsend : m.send c = { m with sent := m.sent + 1, answers := m.answers ++ [refusal m.sent] } := by
    rw [Mailbox.send, hclosed, h.ended.stopped, if_neg Bool.false_ne_true, if_neg Bool.false_ne_true]
  rw [hsend]
  refine ⟨h.service, h.silent, ⟨h.ended.stopped, h.ended.commands, h.ended.outcomes⟩, ?_, ?_⟩
  · have hsent := h.sent
    dsimp only
    omega
  · dsimp only
    rw [h.answers, h.sent, List.range'_concat, List.map_append, List.append_assoc, Nat.one_mul]
    rfl

variable [Sink σ]

/-- A shutdown cancels the queries and drops what waits. -/
theorem takeCommand_shutdown {n : Nat} {rest : List (Nat × Command)} (hr : m.service.running = true)
    (hm : m.commands = (n, .shutdown) :: rest) : m.takeCommand =
      { m with
        service := { m.service with running := false, discovery := m.service.discovery.cancelAll }
        commands := []
        outcomes := []
        answers := m.answers ++ (unanswered rest).map refusal } := by
  have hperform : (m.service.perform .shutdown).1 =
      { m.service with running := false, discovery := m.service.discovery.cancelAll } := by
    obtain ⟨hnot, -⟩ | ⟨-, hstep⟩ := m.service.step_shutdown_cases
    · exact absurd (hnot.symm.trans hr) Bool.false_ne_true
    · exact (m.service.perform_fst .shutdown).trans hstep
  rw [takeCommand, hm]
  dsimp only
  rw [if_pos (show Command.shutdown.isShutdown = true from rfl), hperform]

/-- Nothing that happens after the end is more than a refusal. -/
theorem Refusing.step {k : Nat} (h : m₀.Refusing k m) (x : Move σ) :
    m₀.Refusing (k + if x.isSend then 1 else 0) (m.step x) := by
  cases x with
  | send c => exact h.send c
  | report o =>
    have hstays : m.step (.report o) = m := by
      rw [Mailbox.step, report, h.ended.stopped, if_neg Bool.false_ne_true]
    rwa [hstays]
  | takeCommand =>
    have hstays : m.step .takeCommand = m := by
      rw [Mailbox.step, takeCommand, h.ended.commands]
    rwa [hstays]
  | takeOutcome =>
    have hstays : m.step .takeOutcome = m := by
      rw [Mailbox.step, takeOutcome, h.ended.outcomes]
    rwa [hstays]
  | listen l =>
    have hservice := h.service
    refine ⟨?_, h.silent.trans (m.service.notifier.silent_listen l), ?_, h.sent, h.answers⟩
    · rw [Mailbox.step, listen]
      dsimp only
      rw [hservice]
    · exact ⟨h.ended.stopped, h.ended.commands, h.ended.outcomes⟩

end Mailbox

namespace Course
variable [Sink σ] {required : UInt32} {capacity buffer : Nat} {h : Course σ}

theorem ended_of_not_running (hr : (h.mailbox required capacity buffer).service.running = false) :
    (h.mailbox required capacity buffer).Ended := by
  induction h with
  | nil => exact absurd hr.symm Bool.false_ne_true
  | cons x h ih =>
    cases hold : (mailbox required capacity buffer h).service.running with
    | true => exact Mailbox.ended_of_stopped _ hold hr
    | false => exact ((ih hold).refusing.step x).ended

theorem running_of_commands {e : Nat × Command} {rest : List (Nat × Command)}
    (hm : (h.mailbox required capacity buffer).commands = e :: rest) :
    (h.mailbox required capacity buffer).service.running = true := by
  cases hr : (h.mailbox required capacity buffer).service.running with
  | true => rfl
  | false =>
    have hnone := (ended_of_not_running hr).commands
    rw [hm] at hnone
    exact absurd hnone (by simp)

/-- Whatever comes after the end. -/
theorem refusing_append (he : (h.mailbox required capacity buffer).Ended) (later : Course σ) :
    (h.mailbox required capacity buffer).Refusing (later.countP Move.isSend)
      (mailbox required capacity buffer (later ++ h)) := by
  induction later with
  | nil => exact he.refusing
  | cons x later ih =>
    rw [List.countP_cons]
    exact ih.step x

/-- A shutdown whose turn has come finds that all commands sent before it were handled, in order, each of them answered.
From then on, however things go on, the service does not run; it publishes nothing; of every bundle it is known what was
known before, and no more; no query is in flight and none is waited for, as long as no query was given the number of
another one in flight; no outcome has an effect, be it in the queue already or reported later; and who waited in the queue
is told that the service is closed, as is everybody who asks later, once each. -/
theorem shutdown_is_final (required : UInt32) (capacity buffer : Nat) (before later : Course σ) {n : Nat}
    {rest : List (Nat × Command)} (hnext : (before.mailbox required capacity buffer).commands = (n, .shutdown) :: rest) :
    let m₀ := before.mailbox required capacity buffer
    let m := mailbox required capacity buffer (later ++ .takeCommand :: before)
    let earlier := before.handled required capacity buffer
    (before.sent required capacity buffer = earlier.map (fun y => (y.1, y.2.1)) ++ (n, .shutdown) :: rest ∧
      (∀ y ∈ earlier, y.2.1.isShutdown = false) ∧
      (earlier.map fun y => (y.1, y.2.2)).Sublist m₀.answers) ∧
    (m.service.running = false ∧ m₀.service.notifier.Silent m.service.notifier ∧
      m.service.roster = m₀.service.roster ∧ m.service.handles = m₀.service.handles) ∧
    (∀ t, (m.service.bundles.get? t).map Bundle.standing = (m₀.service.bundles.get? t).map Bundle.standing ∧
      m.service.bundles.lookup t = m₀.service.bundles.lookup t) ∧
    (m.service.discovery.pending = [] ∧
      ((before.events required capacity buffer).KeepsNumbersApart required capacity →
        ∀ t e, m.service.bundles.get? t = some e → e.waiting = [])) ∧
    (m.outcomes = [] ∧
      (∀ outcomes, { m₀ with outcomes }.step .takeCommand = m₀.step .takeCommand) ∧
      (∀ o, m.step (.report o) = m ∧ m.service.handleOutcome o = m.service)) ∧
    (m.commands = [] ∧
      m.answers = m₀.answers ++ (Mailbox.unanswered rest).map Mailbox.refusal ++
        (List.range' m₀.sent (later.countP Move.isSend)).map Mailbox.refusal ∧
      (m.answers.map Prod.fst).Perm (List.range m.sent) ∧
      ∀ c, m.service.perform c = (m.service, .error .closed)) := by
  intro m₀ m earlier
  have hrun : m₀.service.running = true := running_of_commands hnext
  have hend := Mailbox.takeCommand_shutdown hrun hnext
  have hsome (os : List Outcome) : ({ m₀ with outcomes := os } : Mailbox σ).takeCommand = m₀.takeCommand := by
    rw [hend, Mailbox.takeCommand_shutdown (m := { m₀ with outcomes := os }) hrun hnext]
  have hended : (mailbox required capacity buffer (.takeCommand :: before)).Ended := by
    rw [mailbox, Mailbox.step, hend]
    exact ⟨rfl, rfl, rfl⟩
  have hlater : m₀.takeCommand.Refusing (later.countP Move.isSend) m := refusing_append hended later
  rw [hend] at hlater
  obtain ⟨hservice, hsilent, ⟨hstopped, hcommands, houtcomes⟩, hsent, hanswers⟩ := hlater
  have hbundles : m.service.bundles = m₀.service.discovery.cancelAll.bundles := by
    rw [bundles, hservice]
  have hstanding (t : CapabilitySignature) :
      (m.service.bundles.get? t).map Bundle.standing = (m₀.service.bundles.get? t).map Bundle.standing := by
    rw [hbundles]
    exact m₀.service.discovery.standing_cancelAll t
  obtain ⟨hqueue, hnone, hanswered⟩ := sent_eq hrun
  refine ⟨⟨by rw [hqueue, hnext], hnone, hanswered⟩, ⟨hstopped, hsilent, ?_, ?_⟩,
    fun t => ⟨hstanding t, Bundles.lookup_eq_of_standing_eq (hstanding t)⟩, ⟨?_, fun hn t e he => ?_⟩,
    ⟨houtcomes, hsome, fun o => ⟨?_, ?_⟩⟩, hcommands, hanswers, ?_, perform_of_not_running hstopped⟩
  · rw [hservice]
  · rw [hservice]
  · rw [hservice]
    rfl
  · have hmirrors := (History.mirrored before.isPrivate_events hn).1
    rw [← service_mailbox] at hmirrors
    rw [hbundles] at he
    exact (Discovery.mirrors_cancelAll hmirrors).waiting he
  · rw [Mailbox.step, Mailbox.report, hstopped, if_neg Bool.false_ne_true]
  · rw [handleOutcome, hstopped, if_neg Bool.false_ne_true]
  · have hall : m.Accounted := accounted _
    rw [Mailbox.Accounted, hcommands] at hall
    simpa [Mailbox.unanswered] using hall

/-- The laptop's first query is answered and the answer to its second waits when the service is shut down; one command
comes before the end, and another one after it. -/
def halfResolved : Course SinkKind :=
  [.send .shutdown,
    .report ⟨⟨2⟩, .ok Sample.videoExtensionReply⟩,
    .takeOutcome,
    .report ⟨⟨1⟩, .ok Sample.audioReply⟩,
    .takeCommand,
    .send (.presence (Sample.available Sample.laptop { Sample.advertisement "0.1" with ext := ["video"] }))]

/-- What the first query brought is kept, what the second one brought is not even looked at. -/
theorem final_of_halfResolved :
    let base := (Sample.advertisement "0.1").baseSignature
    let video := CapabilitySignature.ofExtension Sample.clientNode "video"
    let before : Course SinkKind := .send .pendingQueries :: halfResolved
    let later : Course SinkKind := [.send (.rawCapabilities ⟨1⟩), .report ⟨⟨2⟩, .ok Sample.videoExtensionReply⟩]
    let m₀ := before.mailbox 1 16 8
    let m := mailbox 1 16 8 (later ++ .takeCommand :: before)
    m₀.commands = [(1, .shutdown), (2, .pendingQueries)] ∧ m₀.outcomes.length = 1 ∧
    m₀.service.bundles.isTrusted base = true ∧ m₀.service.discovery.pending.keys = [⟨2⟩] ∧
    m.service.discovery.pending = [] ∧ m.outcomes = [] ∧
    (m.service.bundles.get? base).map (·.standing.features) = some (some Sample.audioReply.featureSet) ∧
    (m.service.bundles.get? video).map Bundle.standing = some .new ∧
    (∃ e, m.service.bundles.get? video = some e ∧ e.waiting = []) ∧
    m.answers = m₀.answers ++ [(2, .error .closed), (3, .error .closed)] := by
  intro base video before later m₀ m
  have hnext : m₀.commands = [(1, .shutdown), (2, .pendingQueries)] := rfl
  obtain ⟨-, -, hstanding, ⟨hpending, hwaiting⟩, ⟨houtcomes, -⟩, -, hanswers, -⟩ :=
    shutdown_is_final 1 16 8 before later hnext
  have hapart : (before.events 1 16 8).KeepsNumbersApart 1 16 := History.keepsNumbersApart (by decide)
  have hlearnt : (m₀.service.bundles.get? base).map (·.standing.features) =
    some (some Sample.audioReply.featureSet) := by decide
  have hunknown : (m₀.service.bundles.get? video).map Bundle.standing = some .new := by decide
  have hvideo := (hstanding video).1.trans hunknown
  obtain ⟨e, he, -⟩ := Option.map_eq_some_iff.1 hvideo
  refine ⟨hnext, by decide, by decide, by decide, hpending, houtcomes, ?_, hvideo,
    ⟨e, he, hwaiting hapart video e he⟩, ?_⟩
  · have hbase := congrArg (Option.map Bundle.features) (hstanding base).1
    rw [Option.map_map, Option.map_map] at hbase
    exact hbase.trans hlearnt
  · rw [List.append_assoc] at hanswers
    exact hanswers

end Course
end Service
end PresenceCaps
