import Mathlib.Data.List.Perm.Basic
import PresenceCaps.Proofs.Service.Learning

/-!
The service behind its queues. Commands and outcomes wait in two queues, each in the order in which they came, and which
of the two is served next is open. A shutdown ends the service when its turn comes: what still waits is then dropped, and
so is what comes later.
-/
namespace PresenceCaps.Service
variable {σ : Type} [Sink σ]

/-- What callers ask of the service. -/
inductive Command where
  | presence (update : PresenceUpdate)
  | ensureContact (contact : BareAddress)
  | contactCapabilities (handles : List ContactHandle)
  | capabilitiesOf (handle : ContactHandle)
  | rawCapabilities (handle : ContactHandle)
  | pickResource (handle : ContactHandle) (required : Capabilities)
  | pendingQueries
  | shutdown

namespace Command

def isShutdown : Command → Bool
  | shutdown => true
  | _ => false

/-- The event that a command is, if it is more than a question. -/
def event? : Command → Option (Event σ)
  | presence u => some (.presence u)
  | ensureContact a => some (.contact a)
  | shutdown => some .shutdown
  | _ => none

theorem eq_shutdown {c : Command} (hc : c.isShutdown = true) : c = shutdown := by
  cases c with
  | shutdown => rfl
  | _ => exact absurd hc Bool.false_ne_true

end Command

/-- What callers are told. -/
inductive Reply where
  | receipt (receipt : Receipt)
  | handle (handle : ContactHandle)
  | contacts (contacts : List ContactCapabilities)
  | classes (classes : List ChannelClass)
  | raw (capabilities : Capabilities)
  | resource (resource : Option FullAddress)
  | count (count : Nat)
  | stopping
deriving DecidableEq

/-- Carries a command out. -/
def perform (s : Service σ) : Command → Service σ × Except ServiceError Reply
  | .presence u =>
    match s.handlePresence u with
    | .ok x => (x.service, .ok (.receipt x.receipt))
    | .error e => (s, .error e)
  | .ensureContact a =>
    match s.ensureContact a with
    | .ok x => (x.1, .ok (.handle x.2))
    | .error e => (s, .error e)
  | .contactCapabilities xs => (s, (s.contactCapabilities xs).map .contacts)
  | .capabilitiesOf x => (s, (s.capabilitiesOf x).map .classes)
  | .rawCapabilities x => (s, (s.rawCapabilities x).map .raw)
  | .pickResource x required => (s, (s.pickResource x required).map .resource)
  | .pendingQueries => (s, s.pendingQueries.map .count)
  | .shutdown =>
    match s.shutdown with
    | .ok s' => (s', .ok .stopping)
    | .error e => (s, .error e)

theorem perform_fst (s : Service σ) (c : Command) : (s.perform c).1 =
    match c.event? with
    | none => s
    | some e => s.step e := by
  cases c with
  | presence u =>
    simp only [perform, Command.event?, step]
    cases s.handlePresence u <;> rfl
  | ensureContact a =>
    simp only [perform, Command.event?, step]
    cases s.ensureContact a <;> rfl
  | shutdown =>
    simp only [perform, Command.event?, step]
    cases s.shutdown <;> rfl
  | _ => rfl

/-- Only a shutdown ends the service. -/
theorem running_perform (s : Service σ) (c : Command) : (s.perform c).1.running = (s.running && !c.isShutdown) := by
  rw [perform_fst]
  cases c with
  | presence u => simp [Command.event?, Command.isShutdown, running_step]
  | ensureContact a => simp [Command.event?, Command.isShutdown, running_step]
  | shutdown => simp [Command.event?, Command.isShutdown, running_step]
  | _ => simp [Command.event?, Command.isShutdown]

/-- A service that has ended answers nothing. -/
theorem perform_of_not_running {s : Service σ} (hr : s.running = false) (c : Command) :
    s.perform c = (s, .error .closed) := by
  have hrefused {α : Type} (answer : Except ServiceError α) : s.request answer = .error .closed := by
    rw [request, hr]
    rfl
  cases c with
  | presence u => rw [perform, handlePresence, hrefused]
  | ensureContact a => rw [perform, ensureContact, hrefused]
  | contactCapabilities xs => rw [perform, contactCapabilities, hrefused]; rfl
  | capabilitiesOf x => rw [perform, capabilitiesOf, hrefused]; rfl
  | rawCapabilities x => rw [perform, rawCapabilities, hrefused]; rfl
  | pickResource x required => rw [perform, pickResource, hrefused]; rfl
  | pendingQueries => rw [perform, pendingQueries, hrefused]; rfl
  | shutdown => rw [perform, shutdown, hrefused]

/-- The service with its queues. Commands are numbered as they are sent, and an answer has the number of its command. -/
structure Mailbox (σ : Type) where
  service : Service σ
  room : Nat
  commands : List (Nat × Command)
  outcomes : List Outcome
  sent : Nat
  answers : List (Nat × Except ServiceError Reply)

namespace Mailbox

/-- A buffer of no commands counts as one of one. -/
def start (required : UInt32) (capacity buffer : Nat) : Mailbox σ where
  service := .start required capacity
  room := max buffer 1
  commands := []
  outcomes := []
  sent := 0
  answers := []

def refusal (n : Nat) : Nat × Except ServiceError Reply := (n, .error .closed)

/-- Nobody waits for more of a shutdown than that it is in the queue. -/
def acknowledgement (n : Nat) (c : Command) : List (Nat × Except ServiceError Reply) :=
  if c.isShutdown then [(n, .ok .stopping)] else []

/-- The commands whose callers still wait for their answers. -/
def unanswered (commands : List (Nat × Command)) : List Nat :=
  (commands.filter fun x => !x.2.isShutdown).map Prod.fst

def accepts (m : Mailbox σ) : Bool := m.service.running && m.commands.length < m.room

/-- As long as there is no room the caller waits, and has not sent the command. -/
def send (m : Mailbox σ) (c : Command) : Mailbox σ :=
  if m.accepts then
    { m with
      commands := m.commands ++ [(m.sent, c)]
      sent := m.sent + 1
      answers := m.answers ++ acknowledgement m.sent c }
  else if m.service.running then m
  else { m with sent := m.sent + 1, answers := m.answers ++ [refusal m.sent] }

/-- A query reports its outcome. -/
def report (m : Mailbox σ) (o : Outcome) : Mailbox σ :=
  if m.service.running then { m with outcomes := m.outcomes ++ [o] } else m

/-- The queues end with the service, and then those who wait are told that it is closed. -/
def takeCommand (m : Mailbox σ) : Mailbox σ :=
  match m.commands with
  | [] => m
  | (n, c) :: rest =>
    if c.isShutdown then
      { m with
        service := (m.service.perform c).1
        commands := []
        outcomes := []
        answers := m.answers ++ (unanswered rest).map refusal }
    else
      { m with
        service := (m.service.perform c).1
        commands := rest
        answers := m.answers ++ [(n, (m.service.perform c).2)] }

def takeOutcome (m : Mailbox σ) : Mailbox σ :=
  match m.outcomes with
  | [] => m
  | o :: rest => { m with service := m.service.handleOutcome o, outcomes := rest }

def listen (m : Mailbox σ) (l : Listening σ) : Mailbox σ :=
  { m with service := { m.service with notifier := m.service.notifier.listen l } }

end Mailbox

/-- What can happen next: at the ends of the queues, at their heads, or to the listeners. -/
inductive Move (σ : Type) where
  | send (command : Command)
  | report (outcome : Outcome)
  | takeCommand
  | takeOutcome
  | listen (listening : Listening σ)

namespace Mailbox
variable (m : Mailbox σ)

def step : Move σ → Mailbox σ
  | .send c => m.send c
  | .report o => m.report o
  | .takeCommand => m.takeCommand
  | .takeOutcome => m.takeOutcome
  | .listen l => m.listen l

/-- The command that a move puts into the queue. -/
def entering : Move σ → List (Nat × Command)
  | .send c => if m.accepts then [(m.sent, c)] else []
  | _ => []

/-- The command that a move takes out of the queue, and what came of it. -/
def leaving : Move σ → List (Nat × Command × Except ServiceError Reply)
  | .takeCommand => m.commands.head?.toList.map fun x => (x.1, x.2, (m.service.perform x.2).2)
  | _ => []

/-- What a move is to the service. -/
def event? : Move σ → Option (Event σ)
  | .takeCommand => m.commands.head?.bind fun x => x.2.event?
  | .takeOutcome => m.outcomes.head?.map .outcome
  | .listen l => some (.listening l)
  | _ => none

omit [Sink σ] in
theorem send_cases (c : Command) :
    (m.accepts = true ∧ m.send c =
      { m with
        commands := m.commands ++ [(m.sent, c)]
        sent := m.sent + 1
        answers := m.answers ++ acknowledgement m.sent c }) ∨
    (m.accepts = false ∧ m.service.running = true ∧ m.send c = m) ∨
    (m.accepts = false ∧ m.service.running = false ∧
      m.send c = { m with sent := m.sent + 1, answers := m.answers ++ [refusal m.sent] }) := by
  unfold send
  cases ha : m.accepts with
  | true => exact Or.inl ⟨rfl, rfl⟩
  | false =>
    cases hr : m.service.running with
    | true => exact Or.inr (Or.inl ⟨rfl, rfl, rfl⟩)
    | false => exact Or.inr (Or.inr ⟨rfl, rfl, rfl⟩)

theorem takeCommand_cases :
    (m.commands = [] ∧ m.takeCommand = m) ∨
    (∃ n rest, m.commands = (n, .shutdown) :: rest ∧ m.takeCommand =
      { m with
        service := m.service.step .shutdown
        commands := []
        outcomes := []
        answers := m.answers ++ (unanswered rest).map refusal }) ∨
    (∃ n c rest, m.commands = (n, c) :: rest ∧ c.isShutdown = false ∧ m.takeCommand =
      { m with
        service := (m.service.perform c).1
        commands := rest
        answers := m.answers ++ [(n, (m.service.perform c).2)] }) := by
  unfold takeCommand
  cases hm : m.commands with
  | nil => exact Or.inl ⟨rfl, rfl⟩
  | cons e rest =>
    obtain ⟨n, c⟩ := e
    cases hc : c.isShutdown with
    | false => exact Or.inr (Or.inr ⟨n, c, rest, rfl, hc, by simp [hc]⟩)
    | true =>
      obtain rfl := Command.eq_shutdown hc
      have hperform : (m.service.perform .shutdown).1 = m.service.step .shutdown := m.service.perform_fst .shutdown
      refine Or.inr (Or.inl ⟨n, rest, rfl, ?_⟩)
      dsimp only
      rw [if_pos hc, hperform]

theorem service_step (x : Move σ) : (m.step x).service =
    match m.event? x with
    | none => m.service
    | some e => m.service.step e := by
  cases x with
  | send c => obtain ⟨-, h⟩ | ⟨-, -, h⟩ | ⟨-, -, h⟩ := m.send_cases c <;> rw [step, h] <;> rfl
  | report o =>
    rw [step, report]
    split <;> rfl
  | takeCommand =>
    obtain ⟨hm, h⟩ | ⟨n, rest, hm, h⟩ | ⟨n, c, rest, hm, -, h⟩ := m.takeCommand_cases
    · rw [step, h, event?, hm]
      rfl
    · rw [step, h, event?, hm]
      rfl
    · rw [step, h, event?, hm]
      exact m.service.perform_fst c
  | takeOutcome =>
    rw [step, takeOutcome, event?]
    cases m.outcomes <;> rfl
  | listen l => rfl

omit [Sink σ] in
theorem isForeign_of_event? {x : Move σ} {e : Event σ} (he : m.event? x = some e) : e.isForeign = false := by
  cases x with
  | takeCommand =>
    obtain ⟨⟨n, c⟩, -, hc⟩ := Option.bind_eq_some_iff.1 he
    cases c with
    | presence u => rw [← Option.some.inj hc]; rfl
    | ensureContact a => rw [← Option.some.inj hc]; rfl
    | shutdown => rw [← Option.some.inj hc]; rfl
    | _ => exact absurd hc (by simp [Command.event?])
  | takeOutcome =>
    obtain ⟨o, -, rfl⟩ := Option.map_eq_some_iff.1 he
    rfl
  | listen l => rw [← Option.some.inj he]; rfl
  | _ => exact absurd he (by simp [event?])

theorem running_of_step {x : Move σ} (hr : (m.step x).service.running = true) : m.service.running = true := by
  rw [service_step] at hr
  split at hr
  · exact hr
  · exact Service.running_of_step hr

/-- What comes goes to the end of the queue, and what is taken was at its head, is no shutdown and is answered. -/
structure Serves (x : Move σ) : Prop where
  order : m.commands ++ m.entering x = (m.leaving x).map (fun y => (y.1, y.2.1)) ++ (m.step x).commands
  noShutdown : ∀ y ∈ m.leaving x, y.2.1.isShutdown = false
  answered : (m.answers ++ (m.leaving x).map fun y => (y.1, y.2.2)).Sublist (m.step x).answers

/-- Most moves take nothing. -/
theorem Serves.of_leaving_eq_nil {m : Mailbox σ} {x : Move σ} (hx : m.leaving x = [])
    (hc : m.commands ++ m.entering x = (m.step x).commands) (ha : m.answers.Sublist (m.step x).answers) :
    m.Serves x where
  order := by rw [hx]; exact hc
  noShutdown y hy := absurd hy (by rw [hx]; exact List.not_mem_nil)
  answered := by rwa [hx, List.map_nil, List.append_nil]

theorem serves_send (c : Command) : m.Serves (.send c) := by
  obtain ⟨hacc, h⟩ | ⟨hacc, -, h⟩ | ⟨hacc, -, h⟩ := m.send_cases c
  · refine .of_leaving_eq_nil rfl ?_ ?_
    · rw [step, h, entering, if_pos hacc]
    · rw [step, h]
      exact List.sublist_append_left ..
  · refine .of_leaving_eq_nil rfl ?_ ?_
    · simp [step, h, entering, hacc]
    · rw [step, h]
  · refine .of_leaving_eq_nil rfl ?_ ?_
    · simp [step, h, entering, hacc]
    · rw [step, h]
      exact List.sublist_append_left ..

theorem serves_takeCommand (hr : m.takeCommand.service.running = true) : m.Serves .takeCommand := by
  obtain ⟨hm, h⟩ | ⟨n, rest, hm, h⟩ | ⟨n, c, rest, hm, hc, h⟩ := m.takeCommand_cases
  · refine .of_leaving_eq_nil ?_ ?_ ?_
    · rw [leaving, hm]
      rfl
    · rw [step, h]
      exact List.append_nil _
    · rw [step, h]
  · -- after a shutdown the service would not run
    rw [h, Service.running_step] at hr
    exact absurd hr Bool.false_ne_true
  · have hleaving : m.leaving .takeCommand = [(n, c, (m.service.perform c).2)] := by
      rw [leaving, hm]
      rfl
    constructor
    · rw [hleaving, step, h, hm]
      exact List.append_nil _
    · intro y hy
      rw [hleaving] at hy
      rw [List.mem_singleton.1 hy]
      exact hc
    · rw [hleaving, step, h]
      exact List.Sublist.refl _

theorem serves {x : Move σ} (hr : (m.step x).service.running = true) : m.Serves x := by
  cases x with
  | send c => exact m.serves_send c
  | report o =>
    have h : m.step (.report o) = { m with outcomes := m.outcomes ++ [o] } := if_pos (m.running_of_step hr)
    refine .of_leaving_eq_nil rfl ?_ ?_
    · rw [h]
      exact List.append_nil _
    · rw [h]
  | takeCommand => exact m.serves_takeCommand hr
  | takeOutcome =>
    have h : (m.step .takeOutcome).commands = m.commands ∧ (m.step .takeOutcome).answers = m.answers := by
      rw [step, takeOutcome]
      cases m.outcomes <;> exact ⟨rfl, rfl⟩
    refine .of_leaving_eq_nil rfl ?_ ?_
    · rw [h.1]
      exact List.append_nil _
    · rw [h.2]
  | listen l => exact .of_leaving_eq_nil rfl (List.append_nil _) (List.Sublist.refl _)

/-- Nothing waits for a service that has stopped. -/
structure Ended : Prop where
  stopped : m.service.running = false
  commands : m.commands = []
  outcomes : m.outcomes = []

/-- The move that stops the service empties its queues. -/
theorem ended_of_stopped {x : Move σ} (hr : m.service.running = true) (hx : (m.step x).service.running = false) :
    (m.step x).Ended := by
  have hsame (hs : (m.step x).service.running = m.service.running) : (m.step x).Ended :=
    absurd (hr.symm.trans (hs.symm.trans hx)) (by decide)
  cases x with
  | takeCommand =>
    obtain ⟨-, h⟩ | ⟨n, rest, -, h⟩ | ⟨n, c, rest, -, hc, h⟩ := m.takeCommand_cases
    · exact hsame (by rw [step, h])
    · rw [step, h] at hx ⊢
      exact ⟨hx, rfl, rfl⟩
    · apply hsame
      rw [step, h]
      dsimp only
      rw [running_perform, hc, Bool.not_false, Bool.and_true]
  | takeOutcome =>
    apply hsame
    rw [step, takeOutcome]
    cases m.outcomes with
    | nil => rfl
    | cons o rest => exact m.service.running_step (.outcome o)
  | _ =>
    apply hsame
    rw [service_step]
    rfl

/-- Every command that was sent either was answered, once, or its caller waits. -/
def Accounted : Prop := (m.answers.map Prod.fst ++ unanswered m.commands).Perm (List.range m.sent)

variable {m}

omit [Sink σ] in
theorem Accounted.send (hm : m.Accounted) (c : Command) : (m.send c).Accounted := by
  -- the new number is either answered or waits, and in both cases it is one more
  have hnew {answers : List (Nat × Except ServiceError Reply)} {commands : List (Nat × Command)}
      (h : (answers.map Prod.fst ++ unanswered commands).Perm
        ((m.answers.map Prod.fst ++ unanswered m.commands) ++ [m.sent])) :
      (answers.map Prod.fst ++ unanswered commands).Perm (List.range (m.sent + 1)) := by
    rw [List.range_succ]
    exact h.trans (List.Perm.append_right _ hm)
  obtain ⟨-, h⟩ | ⟨-, -, h⟩ | ⟨-, -, h⟩ := m.send_cases c
  · rw [h]
    apply hnew
    cases hc : c.isShutdown with
    | true =>
      have hack : acknowledgement m.sent c = [(m.sent, .ok .stopping)] := if_pos hc
      have hwaits : unanswered (m.commands ++ [(m.sent, c)]) = unanswered m.commands := by simp [unanswered, hc]
      rw [hack, hwaits, List.map_append, List.append_assoc, List.append_assoc]
      exact List.Perm.append_left _ List.perm_append_comm
    | false =>
      have hack : acknowledgement m.sent c = [] := by simp [acknowledgement, hc]
      have hwaits : unanswered (m.commands ++ [(m.sent, c)]) = unanswered m.commands ++ [m.sent] := by
        simp [unanswered, hc]
      rw [hack, hwaits, List.append_nil, List.append_assoc]
  · rw [h]
    exact hm
  · rw [h]
    apply hnew
    rw [List.map_append, List.append_assoc, List.append_assoc]
    exact List.Perm.append_left _ List.perm_append_comm

theorem Accounted.takeCommand (hm : m.Accounted) : m.takeCommand.Accounted := by
  obtain ⟨-, h⟩ | ⟨n, rest, hrest, h⟩ | ⟨n, c, rest, hrest, hc, h⟩ := m.takeCommand_cases
  · rw [h]
    exact hm
  · have hwaits : unanswered m.commands = unanswered rest := by rw [hrest]; rfl
    rw [Accounted, hwaits] at hm
    rw [h, Accounted, List.map_append, List.map_map]
    simpa [unanswered, Function.comp_def, refusal] using hm
  · have hwaits : unanswered m.commands = n :: unanswered rest := by
      rw [hrest, unanswered, List.filter_cons_of_pos (by simp [hc])]
      rfl
    rw [Accounted, hwaits] at hm
    rw [h, Accounted, List.map_append, List.append_assoc]
    exact hm

theorem Accounted.step (hm : m.Accounted) (x : Move σ) : (m.step x).Accounted := by
  cases x with
  | send c => exact hm.send c
  | report o =>
    rw [Mailbox.step, report]
    split <;> exact hm
  | takeCommand => exact hm.takeCommand
  | takeOutcome =>
    rw [Mailbox.step, takeOutcome]
    cases m.outcomes <;> exact hm
  | listen l => exact hm

end Mailbox

/-- The moves since the service was started, the latest one in front. -/
abbrev Course (σ : Type) := List (Move σ)

namespace Course
variable (required : UInt32) (capacity buffer : Nat)

/-- The service and its queues after the moves. -/
def mailbox : Course σ → Mailbox σ
  | [] => .start required capacity buffer
  | x :: h => (mailbox h).step x

/-- What the moves were to the service. -/
def events : Course σ → History σ
  | [] => []
  | x :: h => ((mailbox required capacity buffer h).event? x).toList ++ events h

/-- The commands that were put into the queue, in order. -/
def sent : Course σ → List (Nat × Command)
  | [] => []
  | x :: h => sent h ++ (mailbox required capacity buffer h).entering x

/-- The commands that were taken out of the queue, in order, each with what came of it. -/
def handled : Course σ → List (Nat × Command × Except ServiceError Reply)
  | [] => []
  | x :: h => handled h ++ (mailbox required capacity buffer h).leaving x

variable {required capacity buffer} {h : Course σ}

theorem service_mailbox (h : Course σ) : (h.mailbox required capacity buffer).service =
    (h.events required capacity buffer).service required capacity := by
  induction h with
  | nil => rfl
  | cons x h ih =>
    rw [mailbox, Mailbox.service_step, events]
    cases (mailbox required capacity buffer h).event? x with
    | none => exact ih
    | some e => exact congrArg (·.step e) ih

/-- Nobody but the service touches its bundles. -/
theorem isPrivate_events (h : Course σ) : (h.events required capacity buffer).IsPrivate := by
  induction h with
  | nil => exact fun e he => absurd he List.not_mem_nil
  | cons x h ih =>
    intro e he
    rcases List.mem_append.1 he with he | he
    · exact Mailbox.isForeign_of_event? _ (Option.mem_toList.1 he)
    · exact ih e he

/-- First in, first out: as long as the service runs, the commands that were sent are those that were taken, none of
them a shutdown and all of them answered, and then those in the queue. -/
theorem sent_eq (hr : (h.mailbox required capacity buffer).service.running = true) :
    h.sent required capacity buffer = (h.handled required capacity buffer).map (fun y => (y.1, y.2.1)) ++
      (h.mailbox required capacity buffer).commands ∧
    (∀ y ∈ h.handled required capacity buffer, y.2.1.isShutdown = false) ∧
    ((h.handled required capacity buffer).map fun y => (y.1, y.2.2)).Sublist
      (h.mailbox required capacity buffer).answers := by
  induction h with
  | nil => exact ⟨rfl, fun y hy => absurd hy List.not_mem_nil, List.Sublist.refl _⟩
  | cons x h ih =>
    obtain ⟨hsent, hnone, hsub⟩ := ih (Mailbox.running_of_step _ hr)
    have hserves := Mailbox.serves _ hr
    rw [sent, handled, mailbox, hsent, List.append_assoc, hserves.order, List.map_append, List.append_assoc,
      List.map_append]
    refine ⟨rfl, fun y hy => ?_, (hsub.append (List.Sublist.refl _)).trans hserves.answered⟩
    rcases List.mem_append.1 hy with hy | hy
    · exact hnone y hy
    · exact hserves.noShutdown y hy

theorem accounted (h : Course σ) : (h.mailbox required capacity buffer).Accounted := by
  induction h with
  | nil => exact List.Perm.refl _
  | cons x h ih => exact ih.step x

end Course
end PresenceCaps.Service
