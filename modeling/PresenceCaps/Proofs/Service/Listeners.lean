import PresenceCaps.Proofs.Notifier.Delivery
import PresenceCaps.Proofs.Service.Origins
import PresenceCaps.Proofs.Service.Publishing

/-!
What listeners have heard is what queries answer: the log of a sink that was there from the start is, handle by handle,
the numbered list of all changes, and leads to what is published.
-/
namespace PresenceCaps
variable {σ : Type}

/-- A change without what publishing adds to it. -/
def Change.reported (c : Change) : ContactChange := ⟨c.contact, c.old, c.new⟩

namespace Change
variable (log : List Change) (x : ContactHandle)

/-- What the last change of a handle led to. -/
def latest : Capabilities := ((ofHandle log x).getLast?.map (·.new)).getD .baseline

end Change

/-- A log has all changes, each under the handle of its contact; those of a handle are numbered from one on, and the
notifier counts them. -/
structure Logged (changes : List ContactChange) (log : List Change) (sequences : Assoc ContactHandle UInt64)
    (handles : Handles) : Prop where
  all : log.map Change.reported = changes
  named : ∀ c ∈ log, handles.contact? c.handle = some c.contact
  numbered : ∀ x, (Change.ofHandle log x).map (·.sequence.toNat) = List.range' 1 (Change.ofHandle log x).length
  counted : ∀ x, (sequences.get? x).getD 0 = .ofNat (Change.ofHandle log x).length

namespace Logged
variable {changes : List ContactChange} {log : List Change} {sequences : Assoc ContactHandle UInt64} {handles : Handles}
  {x : ContactHandle} {c : ContactChange}

theorem nil (handles : Handles) : Logged [] [] [] handles where
  all := rfl
  named _ hc := absurd hc List.not_mem_nil
  numbered _ := rfl
  counted _ := rfl

theorem of_handles (hl : Logged changes log sequences handles) {handles' : Handles}
    (hh : ∀ x a, handles.contact? x = some a → handles'.contact? x = some a) :
    Logged changes log sequences handles' :=
  ⟨hl.all, fun c hc => hh _ _ (hl.named c hc), hl.numbered, hl.counted⟩

theorem publish [Sink σ] {n : Notifier σ} (hl : Logged changes log n.sequences handles)
    (hlt : changes.length + 1 < 2 ^ 64) (hx : handles.contact? x = some c.contact) :
    Logged (changes ++ [c]) (log ++ [n.numbered x c.contact c.old c.new])
      (n.publish x c.contact c.old c.new).1.sequences handles := by
  have hlength : log.length = changes.length := by rw [← hl.all, List.length_map]
  have hnumbered : Change.Numbered log n.sequences := ⟨hl.numbered, hl.counted⟩
  have hnext := hnumbered.publish (hlength ▸ hlt) x c.contact c.old c.new
  refine ⟨?_, fun d hd => ?_, hnext.numbered, hnext.counted⟩
  · rw [List.map_append, hl.all]
    rfl
  · rcases List.mem_append.1 hd with hd | hd
    · exact hl.named d hd
    · rw [List.mem_singleton.1 hd]
      exact hx

theorem ofHandle_eq_nil (hl : Logged changes log sequences handles) (hx : handles.contact? x = none) :
    Change.ofHandle log x = [] := by
  refine List.filter_eq_nil_iff.2 fun c hc he => ?_
  have hcontact := hl.named c hc
  rw [of_decide_eq_true he, hx] at hcontact
  exact absurd hcontact (by simp)

/-- The changes of a handle are those of its contact. -/
theorem map_reported_ofHandle (hl : Logged changes log sequences handles) (hs : handles.Sound) {a : BareAddress}
    (hx : handles.contact? x = some a) :
    (Change.ofHandle log x).map Change.reported = changes.filter fun c => c.contact = a := by
  have hsame : Change.ofHandle log x = log.filter fun c => c.reported.contact = a := by
    refine List.filter_congr fun c hc => decide_eq_decide.2 ?_
    have hcontact := hl.named c hc
    constructor
    · rintro rfl
      exact Option.some.inj (hcontact.symm.trans hx)
    · intro ha
      -- a contact has one handle
      have hsome : handles.contact? c.handle = some a := hcontact.trans (congrArg some ha)
      exact Option.some.inj ((hs.handle?_eq_some_iff.2 hsome).symm.trans (hs.handle?_eq_some_iff.2 hx))
  rw [hsame, ← hl.all, List.filter_map]
  rfl

end Logged

namespace Notifier
variable {n : Notifier σ}

/-- From outside, a notifier is made to call nobody and to count nothing. -/
theorem listen_proper (hn : n.sinks.Proper) (l : Listening σ) : (n.listen l).sinks.Proper ∧
    n.sinks.Precedes (n.listen l).sinks ∧ (n.listen l).sinks.calls = n.sinks.calls ∧
      (n.listen l).sequences = n.sequences := by
  cases l with
  | subscribe only => exact ⟨hn, .refl _, rfl, rfl⟩
  | unsubscribe id => exact ⟨hn, .refl _, rfl, rfl⟩
  | receive id =>
    rw [listen]
    split <;> exact ⟨hn, .refl _, rfl, rfl⟩
  | register sink => exact ⟨hn.register sink, n.sinks.precedes_register sink, rfl, rfl⟩
  | unregister id => exact ⟨hn.unregister id, n.sinks.precedes_unregister id, rfl, rfl⟩

end Notifier

namespace Service

section Queries
variable {s : Service σ} {f : ContactHandle → Capabilities}
  (hraw : ∀ x, s.raw? x = (s.handles.contact? x).map fun _ => f x)
include hraw

theorem rawCapabilities_of_raw? (x : ContactHandle) :
    s.rawCapabilities x = s.request (match s.handles.contact? x with
      | some _ => .ok (f x)
      | none => .error (.caps (.unknownContact x.value))) := by
  rw [rawCapabilities, hraw]
  cases s.handles.contact? x <;> rfl

theorem capabilitiesOf_of_raw? (x : ContactHandle) :
    s.capabilitiesOf x = s.request (.ok (match s.handles.contact? x with
      | some _ => ChannelClass.ofCapabilities (f x)
      | none => [])) := by
  rw [capabilitiesOf, hraw]
  cases s.handles.contact? x <;> rfl

/-- Handles that were given out are answered for one by one, in the order in which they were asked for. -/
theorem contactCapabilities_of_raw? (xs : List ContactHandle) :
    s.contactCapabilities xs = s.request (.ok ((xs.filter fun x => (s.handles.contact? x).isSome).map
      fun x => ⟨x, ChannelClass.ofCapabilities (f x)⟩)) := by
  rw [contactCapabilities]
  congr 2
  induction xs with
  | nil => rfl
  | cons x xs ih =>
    rw [List.filterMap_cons, hraw]
    cases hx : s.handles.contact? x with
    | none =>
      rw [List.filter_cons_of_neg (by simp [hx])]
      exact ih
    | some a =>
      rw [List.filter_cons_of_pos (by simp [hx]), List.map_cons]
      exact congrArg (_ :: ·) ih

end Queries

variable [Sink σ]

theorem announce_proper {n : Notifier σ} (hn : n.sinks.Proper) (handles : Handles) (c : Option ContactChange) :
    (announce n handles c).sinks.Proper ∧ n.sinks.Precedes (announce n handles c).sinks := by
  cases c with
  | none => exact ⟨hn, .refl _⟩
  | some c =>
    rw [announce]
    split
    · exact ⟨hn, .refl _⟩
    · obtain ⟨hproper, hprecedes, -⟩ := Sinks.notify_proper (Sink.react _) hn _
      exact ⟨hproper, hprecedes⟩

theorem sinks_step {s : Service σ} (hs : s.notifier.sinks.Proper) (e : Event σ) :
    (s.step e).notifier.sinks.Proper ∧ s.notifier.sinks.Precedes (s.step e).notifier.sinks := by
  obtain ⟨l, -, he⟩ | he := s.notifier_step e
  · obtain ⟨hproper, hprecedes, -⟩ := Notifier.listen_proper hs l
    rw [he]
    exact ⟨hproper, hprecedes⟩
  · rw [he]
    exact announce_proper hs _ _

/-- A sink that is registered still, and so was all the time, has every change in its log. -/
structure Heard (id : SinkId) (changes : List ContactChange) (s : Service σ) : Prop where
  proper : s.notifier.sinks.Proper
  given : id.value < s.notifier.sinks.opened
  logged : s.notifier.sinks.contains id = true →
    Logged changes (s.notifier.sinks.received id) s.notifier.sequences s.handles

theorem Heard.step {s : Service σ} {id : SinkId} {changes : List ContactChange} (hh : Heard id changes s) (hn : s.Named)
    (e : Event σ) (hlt : (changes ++ (s.reported? e).toList).length < 2 ^ 64) :
    Heard id (changes ++ (s.reported? e).toList) (s.step e) := by
  obtain ⟨hproper, hprecedes⟩ := sinks_step hh.proper e
  refine ⟨hproper, Nat.lt_of_lt_of_le hh.given hprecedes.opened_le, fun hid => ?_⟩
  -- its number is not given out again, so that the sink was there when the event came
  have hbefore := hprecedes.contains id hh.given hid
  have hlog := (hh.logged hbefore).of_handles fun x a hx => contact?_step hn.sound hx e
  obtain ⟨l, rfl, he⟩ | he := s.notifier_step e
  · obtain ⟨-, -, hcalls, hsequences⟩ := Notifier.listen_proper hh.proper l
    have hnone : s.reported? (.listening l) = none := rfl
    rw [hnone, Option.toList_none, List.append_nil, he, hsequences, Sinks.received, hcalls]
    exact hlog
  · rw [he]
    cases hc : s.reported? e with
    | none =>
      rw [Option.toList_none, List.append_nil]
      exact hlog
    | some c =>
      -- the contact has its handle, and the change is published under it
      obtain ⟨x, hx⟩ := hn.exists_handle? hc
      have hcontact := (hn.step e).sound.handle?_eq_some_iff.1 hx
      have hreceived := Sinks.received_notify (Sink.react s.notifier.sinks.calls) hh.proper
        (s.notifier.numbered x c.contact c.old c.new) id
      rw [if_pos hbefore] at hreceived
      rw [hc, Option.toList_some, List.length_append, List.length_singleton] at hlt
      rw [announce, hx, Option.toList_some]
      have hpublished := hlog.publish hlt hcontact
      rw [← hreceived] at hpublished
      exact hpublished

namespace History
variable (required : UInt32) (capacity : Nat)

/-- The changes that the roster has reported, the first one in front. -/
def reported (h : History σ) : List ContactChange := ((h.rosterCalls required capacity).changes.map Prod.snd).reverse

variable {required : UInt32} {capacity : Nat} {h : History σ}

theorem reported_cons (h : History σ) (e : Event σ) : reported required capacity (e :: h) =
    h.reported required capacity ++ ((h.service required capacity).reported? e).toList := by
  rw [reported, rosterCalls, Service.reported?]
  cases hc : (service required capacity h).rosterCall? e with
  | none =>
    rw [Option.toList_none, List.nil_append, Option.bind_none, Option.toList_none, List.append_nil, reported]
  | some c =>
    rw [Option.toList_some, Option.bind_some, List.singleton_append, Roster.History.changes, roster_service,
      List.map_append, List.reverse_append, reported]
    cases ((rosterCalls required capacity h).roster.step c).2 <;> rfl

theorem sinks_proper (required : UInt32) (capacity : Nat) (h : History σ) :
    (h.service required capacity).notifier.sinks.Proper := by
  induction h with
  | nil => exact .empty
  | cons e h ih => exact (sinks_step ih e).1

/-- Without a query in flight an outcome is for nobody. -/
theorem outcome_of_no_query {s : Service σ} (hs : ∀ id, s.discovery.pending.get? id = none) (o : Outcome) :
    s.handleOutcome o = s ∧ s.reported? (.outcome o) = none := by
  rw [Service.reported?, rosterCall?]
  cases hr : s.running with
  | false =>
    rw [handleOutcome, hr, if_neg (by decide)]
    exact ⟨rfl, rfl⟩
  | true =>
    have hsettle := Discovery.settle_of_get?_eq_none (hs o.id)
    rw [handleOutcome_of_settle_none hr (congrArg Prod.snd hsettle), hsettle]
    exact ⟨rfl, rfl⟩

theorem aside_of_no_query {s : Service σ} (hs : ∀ id, s.discovery.pending.get? id = none) {e : Event σ}
    (he : e.isAside = true) :
    (∀ id, (s.step e).discovery.pending.get? id = none) ∧ s.reported? e = none := by
  constructor
  · intro id
    cases hget : (s.step e).discovery.pending.get? id with
    | none => rfl
    | some q =>
      have hold := (s.step_of_isAside he).2.2 id q hget
      rw [hs] at hold
      exact absurd hold (by simp)
  · cases e with
    | presence u => exact absurd he (by simp [Event.isAside])
    | outcome o => exact absurd he (by simp [Event.isAside])
    | _ => rfl

/-- Without an update there is nothing to ask for, and nothing to report. -/
theorem reported_of_no_presence (required : UInt32) (capacity : Nat) (hh : ∀ u, Event.presence u ∉ h) :
    (∀ id, (h.service required capacity).discovery.pending.get? id = none) ∧ h.reported required capacity = [] ∧
      (h.service required capacity).notifier.sequences = [] := by
  induction h with
  | nil => exact ⟨fun id => rfl, rfl, rfl⟩
  | cons e h ih =>
    obtain ⟨hpending, hreported, hsequences⟩ := ih fun u hu => hh u (List.mem_cons_of_mem e hu)
    have hquiet : (∀ id, ((service required capacity h).step e).discovery.pending.get? id = none) ∧
        (service required capacity h).reported? e = none := by
      cases e with
      | presence u => exact absurd List.mem_cons_self (hh u)
      | outcome o =>
        obtain ⟨hsame, hnone⟩ := outcome_of_no_query hpending o
        rw [step, hsame]
        exact ⟨hpending, hnone⟩
      | _ => exact aside_of_no_query hpending rfl
    refine ⟨hquiet.1, by rw [reported_cons, hreported, hquiet.2]; rfl, ?_⟩
    -- only what is announced is counted
    rw [service]
    obtain ⟨l, -, he⟩ | he := (service required capacity h).notifier_step e
    · rw [he, (Notifier.listen_proper (sinks_proper required capacity h) l).2.2.2, hsequences]
    · rw [he, hquiet.2]
      exact hsequences

/-- The changes that a sink is called with from the time when it is registered. -/
theorem heard {earlier later : History σ} {k : σ} (hfirst : ∀ u, Event.presence u ∉ earlier)
    (hlt : ((later ++ .listening (.register k) :: earlier).reported required capacity).length < 2 ^ 64) :
    Heard ((earlier.service required capacity).notifier.sinks.register k).2
      ((later ++ .listening (.register k) :: earlier).reported required capacity)
      ((later ++ .listening (.register k) :: earlier).service required capacity) := by
  induction later with
  | nil =>
    obtain ⟨-, hreported, hsequences⟩ := reported_of_no_presence required capacity hfirst
    have hsinks := sinks_proper required capacity earlier
    rw [List.nil_append, reported_cons, hreported]
    refine ⟨hsinks.register k, Nat.lt_succ_self _, fun _ => ?_⟩
    -- nobody was called yet, and so nothing was counted
    have hreceived : (service required capacity (.listening (.register k) :: earlier)).notifier.sinks.received
        ((earlier.service required capacity).notifier.sinks.register k).2 = [] :=
      hsinks.received_eq_nil (Nat.le_refl _)
    have hnone : (service required capacity earlier).reported? (.listening (.register k)) = none := rfl
    have hcount : (service required capacity (.listening (.register k) :: earlier)).notifier.sequences = [] :=
      hsequences
    rw [hreceived, hcount, hnone]
    exact .nil _
  | cons e later ih =>
    rw [List.cons_append, reported_cons] at hlt ⊢
    have hshort : (reported required capacity (later ++ .listening (.register k) :: earlier)).length < 2 ^ 64 := by
      rw [List.length_append] at hlt
      omega
    exact (ih hshort).step (named required capacity _) e hlt

theorem filter_reported (h : History σ) (a : BareAddress) :
    ((h.reported required capacity).filter fun c => c.contact = a) =
      ((h.rosterCalls required capacity).changesOf a).reverse := by
  rw [reported, List.filter_reverse, Roster.History.changesOf]

section Log
variable {log : List Change} {a : BareAddress} {x : ContactHandle}

theorem latest_eq_published
    (hlog : (Change.ofHandle log x).map Change.reported = ((h.rosterCalls required capacity).changesOf a).reverse) :
    Change.latest log x = (h.service required capacity).roster.published a := by
  have hlast : (Change.ofHandle log x).getLast?.map (·.new) =
      ((h.rosterCalls required capacity).changesOf a).head?.map (·.new) := by
    rw [← List.getLast?_reverse, ← hlog, List.getLast?_map, Option.map_map]
    rfl
  rw [Change.latest, hlast, roster_service, Roster.History.published_eq_head_changesOf]

/-- The changes of a contact, each from where the one before it led to. -/
theorem chain_of_log
    (hlog : (Change.ofHandle log x).map Change.reported = ((h.rosterCalls required capacity).changesOf a).reverse) :
    (∀ c ∈ (Change.ofHandle log x).head?, c.old = .baseline) ∧
      (Change.ofHandle log x).IsChain (fun c d => d.old = c.new) ∧ ∀ c ∈ Change.ofHandle log x, c.old ≠ c.new := by
  obtain ⟨hchain, hfirst⟩ := (h.rosterCalls required capacity).isChain_changesOf a
  refine ⟨fun c hc => ?_, ?_, fun c hc => ?_⟩
  · refine hfirst c.reported ?_
    rw [← List.head?_reverse, ← hlog, List.head?_map, Option.mem_def.1 hc]
    rfl
  · -- in the log the first change is in front, in the history it is the last
    have hmap : ((Change.ofHandle log x).map Change.reported).IsChain fun c d => d.old = c.new := by
      rw [hlog, List.isChain_reverse]
      exact hchain
    rw [List.isChain_map] at hmap
    exact hmap
  · have hmem : c.reported ∈ (Change.ofHandle log x).map Change.reported := List.mem_map_of_mem hc
    rw [hlog, List.mem_reverse] at hmem
    obtain ⟨e, he, heq⟩ := List.mem_map.1 (List.mem_of_mem_filter hmem)
    have hne := Roster.History.old_ne_new _ e he
    rw [heq] at hne
    exact hne

end Log

/-- A sink that is registered before the first presence update, and for good, has every reported change in its log, in
order. Those of a handle are numbered from one on, name the contact that has the handle, start at the baseline and
follow each other, and where the last one led to is what the queries answer for the handle: with the channels that it
makes, in the order asked for, and without an answer for handles that were never given out. No change is dropped for
want of a handle. -/
theorem listener_hears_what_queries_answer (required : UInt32) (capacity : Nat) (earlier later : History σ) (k : σ)
    (hfirst : ∀ u, Event.presence u ∉ earlier)
    (hkeep : ((later ++ .listening (.register k) :: earlier).service required capacity).notifier.sinks.contains
      ((earlier.service required capacity).notifier.sinks.register k).2 = true)
    (hlt : ((later ++ .listening (.register k) :: earlier).reported required capacity).length < 2 ^ 64) :
    let h : History σ := later ++ .listening (.register k) :: earlier
    let s := h.service required capacity
    let log := s.notifier.sinks.received ((earlier.service required capacity).notifier.sinks.register k).2
    log.map Change.reported = h.reported required capacity ∧
    (∀ x,
      (Change.ofHandle log x).map (·.sequence.toNat) = List.range' 1 (Change.ofHandle log x).length ∧
      (∀ c ∈ Change.ofHandle log x, s.handles.contact? x = some c.contact) ∧
      (∀ c ∈ (Change.ofHandle log x).head?, c.old = .baseline) ∧
      (Change.ofHandle log x).IsChain (fun c d => d.old = c.new) ∧
      (∀ c ∈ Change.ofHandle log x, c.old ≠ c.new) ∧
      s.rawCapabilities x = s.request (match s.handles.contact? x with
        | some _ => .ok (Change.latest log x)
        | none => .error (.caps (.unknownContact x.value))) ∧
      s.capabilitiesOf x = s.request (.ok (match s.handles.contact? x with
        | some _ => ChannelClass.ofCapabilities (Change.latest log x)
        | none => []))) ∧
    (∀ xs, s.contactCapabilities xs = s.request (.ok ((xs.filter fun x => (s.handles.contact? x).isSome).map
      fun x => ⟨x, ChannelClass.ofCapabilities (Change.latest log x)⟩))) ∧
    ∀ (e : Event σ) (before : History σ), (e :: before) <:+ h →
      ∀ c, (before.service required capacity).reported? e = some c →
        ∃ x, (History.service required capacity (e :: before)).handles.handle? c.contact = some x := by
  intro h s log
  have hl : Logged (h.reported required capacity) log s.notifier.sequences s.handles := (heard hfirst hlt).logged hkeep
  have hsound := (named required capacity h).sound
  have hof {x : ContactHandle} {a : BareAddress} (hx : s.handles.contact? x = some a) :=
    (hl.map_reported_ofHandle hsound hx).trans (h.filter_reported a)
  -- all three queries ask for what is published, which is where the log led to
  have hraw (x : ContactHandle) : s.raw? x = (s.handles.contact? x).map fun _ => Change.latest log x := by
    rw [raw?]
    cases hx : s.handles.contact? x with
    | none => rfl
    | some a => exact congrArg some (latest_eq_published (hof hx)).symm
  have hchanges (x : ContactHandle) : (∀ c ∈ (Change.ofHandle log x).head?, c.old = .baseline) ∧
      (Change.ofHandle log x).IsChain (fun c d => d.old = c.new) ∧ ∀ c ∈ Change.ofHandle log x, c.old ≠ c.new := by
    cases hx : s.handles.contact? x with
    | none =>
      -- a handle that was never given out has no changes
      rw [hl.ofHandle_eq_nil hx]
      exact ⟨fun c hc => absurd hc (by simp), .nil, fun c hc => absurd hc List.not_mem_nil⟩
    | some a => exact chain_of_log (hof hx)
  refine ⟨hl.all, fun x => ⟨hl.numbered x, fun c hc => ?_, (hchanges x).1, (hchanges x).2.1, (hchanges x).2.2,
    rawCapabilities_of_raw? hraw x, capabilitiesOf_of_raw? hraw x⟩, contactCapabilities_of_raw? hraw,
    fun e before _ c hc => ?_⟩
  · obtain ⟨hmem, hhandle⟩ := List.mem_filter.1 hc
    rw [← of_decide_eq_true hhandle]
    exact hl.named c hmem
  · exact (named required capacity before).exists_handle? hc

/-- The laptop is found to have tubes and goes offline; then the phone is found to be one for calls. -/
def phoneAfterLaptop : History SinkKind :=
  .outcome ⟨⟨5⟩, .ok Sample.audioReply⟩ :: .presence (Sample.available Sample.phone (Sample.advertisement "0.4")) ::
    .presence ⟨Sample.laptop, .unavailable, 0, none⟩ :: .outcome ⟨⟨4⟩, .ok Sample.tubesReply⟩ :: replacedQueries

/-- All changes are of the first handle, and the last one led to calls; the second handle was never given out. -/
theorem listener_hears_of_phoneAfterLaptop :
    let h : History SinkKind := phoneAfterLaptop ++ .listening (.register .recording) :: []
    let s := h.service 5 16
    let sink := ((service 5 16 []).notifier.sinks.register SinkKind.recording).2
    let log := s.notifier.sinks.received sink
    let calls : List ChannelClass := [.text, .streamedMedia (.union .audio .immutableStreams)]
    (∀ u, Event.presence u ∉ ([] : History SinkKind)) ∧ s.notifier.sinks.contains sink = true ∧
    (h.reported 5 16).length = 3 ∧ (Change.ofHandle log ⟨1⟩).map (·.sequence.toNat) = [1, 2, 3] ∧
    (Change.ofHandle log ⟨1⟩).IsChain (fun c d => d.old = c.new) ∧
    s.contactCapabilities [⟨1⟩, ⟨2⟩, ⟨1⟩] = .ok [⟨⟨1⟩, calls⟩, ⟨⟨1⟩, calls⟩] := by
  have hnone : ∀ u, Event.presence u ∉ ([] : History SinkKind) := fun u => List.not_mem_nil
  have hall := listener_hears_what_queries_answer 5 16 [] phoneAfterLaptop SinkKind.recording hnone (by decide)
    (by decide)
  obtain ⟨-, hhandle, hlist, -⟩ := hall
  obtain ⟨hnumbers, -, -, hchain, -⟩ := hhandle ⟨1⟩
  intro h s sink log calls
  have hcount : (Change.ofHandle log ⟨1⟩).length = 3 := by decide
  have hrun : s.running = true := by decide
  have hanswers : (([⟨1⟩, ⟨2⟩, ⟨1⟩] : List ContactHandle).filter fun x => (s.handles.contact? x).isSome).map
      (fun x => (⟨x, ChannelClass.ofCapabilities (Change.latest log x)⟩ : ContactCapabilities)) =
        [⟨⟨1⟩, calls⟩, ⟨⟨1⟩, calls⟩] := by decide
  refine ⟨hnone, by decide, by decide, ?_, hchain, ?_⟩
  · refine hnumbers.trans ?_
    rw [hcount]
    rfl
  · refine (hlist [⟨1⟩, ⟨2⟩, ⟨1⟩]).trans ?_
    rw [request, if_pos hrun, hanswers]

end History
end Service
end PresenceCaps
