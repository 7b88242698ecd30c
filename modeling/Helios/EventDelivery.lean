import Helios.EventBus

/-! What the bus owes its events at the steps its calls take, and the interleavings in which
it keeps it. -/

namespace Helios.EventBus

/-- The call an input takes a step further. -/
def advancing (state : State) : Input → Option Call
  | .advance thread => state.calls thread
  | _ => none

/-- A law of the steps of calls, at every one of a run. -/
def Throughout (holds : State → Call → Prop) (begin : State) (inputs : List Input) : Prop :=
  ∀ pair ∈ Runs.trace State.step begin inputs, ∀ call ∈ advancing pair.1 pair.2,
    holds pair.1 call

/-- The same signature, or the same account with a version that is not older. -/
def Covers (original copy : IngestEvent) : Prop :=
  (∃ signature, original.signature = some signature ∧ copy.signature = some signature) ∨
    ∃ pubkey version older, original.update = some (pubkey, version) ∧
      copy.update = some (pubkey, older) ∧ older ≤ version

/-- Enqueued, or on its way there. -/
def Accounted (calls : Nat → Option Call) (history : History)
    (passed : Nat × IngestEvent) : Prop :=
  passed ∈ history.enqueued ∨ ∃ thread, calls thread = some ⟨passed.2, .recorded passed.1⟩

/-- Versions rise, signatures are enqueued once a window, only what is enqueued is counted, and
only what is not lost has its copies dropped. -/
structure Delivers (state : State) (call : Call) : Prop where
  increasing : ∀ ticket, call.phase = .recorded ticket → state.channel.HasRoom →
    ∀ pubkey version, call.event.update = some (pubkey, version) →
      ∀ earlier ∈ state.history.enqueued, ∀ older, earlier.2.update = some (pubkey, older) →
        older < version
  once : ∀ ticket, call.phase = .recorded ticket → state.channel.HasRoom →
    ∀ signature, call.event.signature = some signature → signature ∉ state.history.windowed
  counted : ∀ queued, call.phase = .sent queued → queued = true
  deduped : call.phase = .entered → state.seen.duplicate call.event = true →
    ∃ original ∈ state.history.passed, Covers original.2 call.event ∧
      Accounted state.calls state.history original

/-- Nothing recorded later for the account has been enqueued, and nothing has been recorded
later for the signature. -/
def InTurn (history : History) (event : IngestEvent) (ticket : Nat) : Prop :=
  (∀ earlier ∈ history.enqueued, earlier.2.account.isSome = true →
    earlier.2.account = event.account → earlier.1 < ticket) ∧
  ∀ other ∈ history.passed, other.2.signature.isSome = true →
    other.2.signature = event.signature → other.1 ≤ ticket

instance (history : History) (event : IngestEvent) (ticket : Nat) :
    Decidable (InTurn history event ticket) :=
  inferInstanceAs (Decidable (_ ∧ _))

/-- A call that has found its version newer records it while it still is, and one that sends
does so in its turn and into a channel with room. -/
def Meets (state : State) (call : Call) : Prop :=
  match call.phase with
  | .entered => True
  | .newer => state.seen.duplicate call.event = false
  | .recorded ticket =>
      state.channel.HasRoom ∧ InTurn state.history call.event ticket
  | .sent _ => True

instance (state : State) : (call : Call) → Decidable (Meets state call)
  | ⟨_, .entered⟩ => inferInstanceAs (Decidable True)
  | ⟨event, .newer⟩ => inferInstanceAs (Decidable (state.seen.duplicate event = false))
  | ⟨event, .recorded ticket⟩ =>
      inferInstanceAs (Decidable (state.channel.HasRoom ∧ InTurn state.history event ticket))
  | ⟨_, .sent _⟩ => inferInstanceAs (Decidable True)

/-- What holds of a bus whose steps have all met their condition. -/
structure Consistent (seen : Seen) (calls : Nat → Option Call) (history : History) : Prop where
  numbered : ∀ passed ∈ history.passed, passed.1 < history.passed.length
  enqueued : ∀ sent ∈ history.enqueued, sent ∈ history.passed
  pending : ∀ thread event ticket, calls thread = some ⟨event, .recorded ticket⟩ →
    (ticket, event) ∈ history.passed ∧ ∀ sent ∈ history.enqueued, sent.1 ≠ ticket
  apart : ∀ thread other event event' ticket, calls thread = some ⟨event, .recorded ticket⟩ →
    calls other = some ⟨event', .recorded ticket⟩ → thread = other
  accounted : ∀ passed ∈ history.passed, Accounted calls history passed
  sent : ∀ thread event queued, calls thread = some ⟨event, .sent queued⟩ → queued = true
  sigs : ∀ signature, seen.sigs.contains signature = true →
    ∃ passed ∈ history.passed, passed.2.signature = some signature
  accounts : ∀ pubkey version, HashMap.get seen.accounts pubkey = some version →
    ∃ passed ∈ history.passed, passed.2.update = some (pubkey, version)
  newest : ∀ passed ∈ history.passed, ∀ pubkey older, passed.2.update = some (pubkey, older) →
    ∃ version, HashMap.get seen.accounts pubkey = some version ∧ older ≤ version
  rising : ∀ first ∈ history.passed, ∀ second ∈ history.passed, first.1 < second.1 →
    ∀ pubkey older version, first.2.update = some (pubkey, older) →
      second.2.update = some (pubkey, version) → older < version
  window : ∀ signature ∈ history.windowed, seen.sigs.contains signature = true ∧
    ∃ sent ∈ history.enqueued, sent.2.signature = some signature ∧
      ∀ other ∈ history.passed, other.2.signature = some signature → other.1 ≤ sent.1

/-- A call that is not about to send. -/
def Settled (call : Option Call) : Prop := ∀ event ticket, call ≠ some ⟨event, .recorded ticket⟩

section Preservation

variable {seen : Seen} {calls : Nat → Option Call} {history : History}

theorem consistent_start (dedupCapacity : Nat) (positive : 0 < dedupCapacity) :
    Consistent ⟨LruCache.new dedupCapacity positive, HashMap.empty⟩ (fun _ => none)
      ⟨[], [], []⟩ := by
  constructor
  · exact fun passed member => absurd member List.not_mem_nil
  · exact fun sent member => absurd member List.not_mem_nil
  · intro thread event ticket pending
    cases pending
  · intro thread other event event' ticket pending
    cases pending
  · exact fun passed member => absurd member List.not_mem_nil
  · intro thread event queued sent
    cases sent
  · intro signature held
    cases held
  · intro pubkey version held
    rw [HashMap.get_empty] at held
    cases held
  · exact fun passed member => absurd member List.not_mem_nil
  · exact fun first member => absurd member List.not_mem_nil
  · exact fun signature member => absurd member List.not_mem_nil

/-- Between settled calls the threads' own progress changes nothing. -/
theorem consistent_setCall (consistent : Consistent seen calls history) (thread : Nat)
    (next : Option Call) (before : Settled (calls thread)) (after : Settled next)
    (sent : ∀ event queued, next = some ⟨event, .sent queued⟩ → queued = true) :
    Consistent seen (Function.update calls thread next) history := by
  have other : ∀ caller event ticket,
      Function.update calls thread next caller = some ⟨event, .recorded ticket⟩ ↔
        calls caller = some ⟨event, .recorded ticket⟩ := by
    intro caller event ticket
    rw [Function.update_apply]
    split
    · next same =>
        rw [same]
        exact ⟨fun found => absurd found (after event ticket),
          fun found => absurd found (before event ticket)⟩
    · exact Iff.rfl
  exact { consistent with
    pending := by
      intro caller event ticket pending
      exact consistent.pending caller event ticket ((other _ _ _).mp pending)
    apart := by
      intro caller caller' event event' ticket first second
      exact consistent.apart caller caller' event event' ticket ((other _ _ _).mp first)
        ((other _ _ _).mp second)
    accounted := by
      intro passed member
      rcases consistent.accounted passed member with inside | ⟨caller, found⟩
      · exact Or.inl inside
      · exact Or.inr ⟨caller, (other _ _ _).mpr found⟩
    sent := by
      intro caller event queued found
      rw [Function.update_apply] at found
      split at found
      · exact sent event queued found
      · exact consistent.sent caller event queued found }

/-- What recording a new event makes of the account versions. -/
theorem get_record (event : IngestEvent) (pubkey : Pubkey) (version : Nat)
    (fresh : seen.duplicate event = false) :
    (event.update = some (pubkey, version) →
      HashMap.get (seen.record event).accounts pubkey = some version ∧
        ∀ older, HashMap.get seen.accounts pubkey = some older → older < version) ∧
    (event.account ≠ some pubkey →
      HashMap.get (seen.record event).accounts pubkey = HashMap.get seen.accounts pubkey) := by
  rcases event with ⟨source, receivedAt, data⟩
  cases data with
  | transaction signature =>
      constructor
      · intro updates
        cases updates
      · exact fun _ => rfl
  | slot =>
      constructor
      · intro updates
        cases updates
      · exact fun _ => rfl
  | accountUpdate key writeVersion =>
      constructor
      · intro updates
        cases updates
        constructor
        · exact HashMap.get_insert _ _ _
        · intro older held
          rw [Seen.duplicate] at fresh
          dsimp only at fresh
          rw [held] at fresh
          have newer := of_decide_eq_false fresh
          omega
      · intro apart
        apply HashMap.get_insert_ne
        intro same
        apply apart
        rw [same]
        rfl

theorem contains_record (event : IngestEvent) (signature : Signature)
    (held : (seen.record event).sigs.contains signature = true) :
    event.signature = some signature ∨ seen.sigs.contains signature = true := by
  rcases event with ⟨source, receivedAt, data⟩
  cases data with
  | transaction own =>
      rcases LruCache.contains_of_put _ _ _ _ held with same | earlier
      · rw [same]
        exact Or.inl rfl
      · exact Or.inr earlier
  | slot => exact Or.inr held
  | accountUpdate key writeVersion => exact Or.inr held

theorem not_contains_of_fresh (event : IngestEvent) (signature : Signature)
    (fresh : seen.duplicate event = false) (own : event.signature = some signature) :
    seen.sigs.contains signature = false := by
  rcases event with ⟨source, receivedAt, data⟩
  cases data with
  | transaction named =>
      cases own
      exact fresh
  | slot => cases own
  | accountUpdate key writeVersion => cases own

theorem mem_concat (passed : List (Nat × IngestEvent)) (event : IngestEvent)
    (member : Nat × IngestEvent) :
    member ∈ passed ++ [(passed.length, event)] ↔
      member ∈ passed ∨ member = (passed.length, event) := by
  rw [List.mem_append, List.mem_singleton]

/-- After an event is recorded, the threads about to send are the one with the new ticket and
those from before. -/
theorem recorded_of_update (thread caller ticket number : Nat) (event event' : IngestEvent)
    (found : Function.update calls thread (some ⟨event, .recorded number⟩) caller =
      some ⟨event', .recorded ticket⟩) :
    (caller = thread ∧ event' = event ∧ ticket = number) ∨
      calls caller = some ⟨event', .recorded ticket⟩ := by
  rw [Function.update_apply] at found
  split at found
  · next same =>
      cases found
      exact Or.inl ⟨same, rfl, rfl⟩
  · exact Or.inr found

/-- A new event's ticket is no earlier thread's. -/
theorem Consistent.ticket_ne (consistent : Consistent seen calls history) (caller ticket : Nat)
    (event : IngestEvent) (pending : calls caller = some ⟨event, .recorded ticket⟩) :
    ticket ≠ history.passed.length :=
  Nat.ne_of_lt (consistent.numbered _ (consistent.pending caller event ticket pending).1)

/-- A new event's version is above every version recorded for its account. -/
theorem Consistent.version_lt (consistent : Consistent seen calls history) (event : IngestEvent)
    (fresh : seen.duplicate event = false) (passed : Nat × IngestEvent)
    (member : passed ∈ history.passed) (pubkey : Pubkey) (older version : Nat)
    (earlier : passed.2.update = some (pubkey, older))
    (here : event.update = some (pubkey, version)) : older < version := by
  rcases consistent.newest passed member pubkey older earlier with ⟨known, held, above⟩
  have newer := ((get_record event pubkey version fresh).1 here).2 known held
  omega

theorem accounts_pass (consistent : Consistent seen calls history) (event : IngestEvent)
    (fresh : seen.duplicate event = false) (pubkey : Pubkey) (version : Nat)
    (held : HashMap.get (seen.record event).accounts pubkey = some version) :
    ∃ passed ∈ history.passed ++ [(history.passed.length, event)],
      passed.2.update = some (pubkey, version) := by
  by_cases own : event.account = some pubkey
  · rcases Option.map_eq_some_iff.mp own with ⟨⟨key, written⟩, updates, same⟩
    cases same
    have recorded := ((get_record event key written fresh).1 updates).1
    rw [recorded] at held
    cases held
    exact ⟨_, (mem_concat _ _ _).mpr (Or.inr rfl), updates⟩
  · rw [(get_record event pubkey version fresh).2 own] at held
    rcases consistent.accounts pubkey version held with ⟨passed, member, updates⟩
    exact ⟨passed, (mem_concat _ _ _).mpr (Or.inl member), updates⟩

theorem newest_pass (consistent : Consistent seen calls history) (event : IngestEvent)
    (fresh : seen.duplicate event = false) (passed : Nat × IngestEvent)
    (member : passed ∈ history.passed ++ [(history.passed.length, event)]) (pubkey : Pubkey)
    (older : Nat) (updates : passed.2.update = some (pubkey, older)) :
    ∃ version, HashMap.get (seen.record event).accounts pubkey = some version ∧
      older ≤ version := by
  rcases (mem_concat _ _ _).mp member with before | new
  · by_cases own : event.account = some pubkey
    · rcases Option.map_eq_some_iff.mp own with ⟨⟨key, written⟩, here, same⟩
      cases same
      have above := consistent.version_lt event fresh passed before key older written updates here
      exact ⟨written, ((get_record event key written fresh).1 here).1, Nat.le_of_lt above⟩
    · rw [(get_record event pubkey older fresh).2 own]
      exact consistent.newest passed before pubkey older updates
  · rw [new] at updates
    exact ⟨older, ((get_record event pubkey older fresh).1 updates).1, Nat.le_refl _⟩

theorem rising_pass (consistent : Consistent seen calls history) (event : IngestEvent)
    (fresh : seen.duplicate event = false) (first second : Nat × IngestEvent)
    (firstMember : first ∈ history.passed ++ [(history.passed.length, event)])
    (secondMember : second ∈ history.passed ++ [(history.passed.length, event)])
    (below : first.1 < second.1) (pubkey : Pubkey) (older version : Nat)
    (one : first.2.update = some (pubkey, older))
    (other : second.2.update = some (pubkey, version)) : older < version := by
  rcases (mem_concat _ _ _).mp firstMember with before | new
  · rcases (mem_concat _ _ _).mp secondMember with earlier | last
    · exact consistent.rising first before second earlier below pubkey older version one other
    · rw [last] at other
      exact consistent.version_lt event fresh first before pubkey older version one other
  · rcases (mem_concat _ _ _).mp secondMember with earlier | last
    · have low := consistent.numbered second earlier
      rw [new] at below
      omega
    · rw [new, last] at below
      exact absurd below (Nat.lt_irrefl _)

/-- Recording a new event with the next ticket. -/
theorem consistent_pass (consistent : Consistent seen calls history) (thread : Nat)
    (event : IngestEvent) (settled : Settled (calls thread))
    (fresh : seen.duplicate event = false) :
    Consistent (seen.record event)
      (Function.update calls thread (some ⟨event, .recorded history.passed.length⟩))
      { history with
        passed := history.passed ++ [(history.passed.length, event)]
        windowed := history.windowed.filter (seen.record event).sigs.contains } := by
  exact {
    numbered := by
      intro passed member
      rw [List.length_append, List.length_singleton]
      rcases (mem_concat _ _ _).mp member with before | new
      · exact Nat.lt_succ_of_lt (consistent.numbered passed before)
      · rw [new]
        exact Nat.lt_succ_self _
    enqueued := by
      intro sent member
      exact (mem_concat _ _ _).mpr (Or.inl (consistent.enqueued sent member))
    pending := by
      intro caller event' ticket found
      rcases recorded_of_update _ _ _ _ _ _ found with ⟨_, same, number⟩ | before
      · rw [same, number]
        refine ⟨(mem_concat _ _ _).mpr (Or.inr rfl), ?_⟩
        intro sent member
        exact Nat.ne_of_lt (consistent.numbered sent (consistent.enqueued sent member))
      · rcases consistent.pending caller event' ticket before with ⟨recorded, unsent⟩
        exact ⟨(mem_concat _ _ _).mpr (Or.inl recorded), unsent⟩
    apart := by
      intro caller other event' event'' ticket first second
      rcases recorded_of_update _ _ _ _ _ _ first with ⟨here, _, number⟩ | before
      · rcases recorded_of_update _ _ _ _ _ _ second with ⟨there, _, _⟩ | earlier
        · rw [here, there]
        · exact absurd number (consistent.ticket_ne other ticket event'' earlier)
      · rcases recorded_of_update _ _ _ _ _ _ second with ⟨_, _, number⟩ | earlier
        · exact absurd number (consistent.ticket_ne caller ticket event' before)
        · exact consistent.apart caller other event' event'' ticket before earlier
    accounted := by
      intro passed member
      rcases (mem_concat _ _ _).mp member with before | new
      · rcases consistent.accounted passed before with sent | ⟨caller, found⟩
        · exact Or.inl sent
        · have elsewhere : caller ≠ thread := by
            intro same
            rw [same] at found
            exact settled _ _ found
          exact Or.inr ⟨caller, (Function.update_of_ne elsewhere _ _).trans found⟩
      · rw [new]
        exact Or.inr ⟨thread, Function.update_self ..⟩
    sent := by
      intro caller event' queued found
      rw [Function.update_apply] at found
      split at found
      · cases found
      · exact consistent.sent caller event' queued found
    sigs := by
      intro signature held
      rcases contains_record event signature held with named | before
      · exact ⟨_, (mem_concat _ _ _).mpr (Or.inr rfl), named⟩
      · rcases consistent.sigs signature before with ⟨passed, member, named⟩
        exact ⟨passed, (mem_concat _ _ _).mpr (Or.inl member), named⟩
    accounts := accounts_pass consistent event fresh
    newest := newest_pass consistent event fresh
    rising := by
      intro first firstMember second secondMember
      exact rising_pass consistent event fresh first second firstMember secondMember
    window := by
      intro signature member
      rcases List.mem_filter.mp member with ⟨before, held⟩
      rcases consistent.window signature before with ⟨cached, sent, inside, named, latest⟩
      refine ⟨held, sent, inside, named, ?_⟩
      intro other otherMember same
      rcases (mem_concat _ _ _).mp otherMember with earlier | new
      · exact latest other earlier same
      · rw [new] at same
        rw [not_contains_of_fresh event signature fresh same] at cached
        cases cached }

/-- Enqueuing an event in its turn. -/
theorem consistent_send (consistent : Consistent seen calls history) (thread ticket : Nat)
    (event : IngestEvent) (windowed : List Signature)
    (pending : calls thread = some ⟨event, .recorded ticket⟩)
    (inTurn : InTurn history event ticket)
    (window : ∀ signature ∈ windowed, signature ∈ history.windowed ∨
      event.signature = some signature ∧ seen.sigs.contains signature = true) :
    Consistent seen (Function.update calls thread (some ⟨event, .sent true⟩))
      { history with
        enqueued := history.enqueued ++ [(ticket, event)]
        windowed := windowed } := by
  have recorded := consistent.pending thread event ticket pending
  have still : ∀ caller event' ticket', Function.update calls thread
      (some ⟨event, .sent true⟩) caller = some ⟨event', .recorded ticket'⟩ →
        caller ≠ thread ∧ calls caller = some ⟨event', .recorded ticket'⟩ := by
    intro caller event' ticket' found
    rw [Function.update_apply] at found
    split at found
    · cases found
    · next elsewhere => exact ⟨elsewhere, found⟩
  exact { consistent with
    enqueued := by
      intro sent member
      rcases List.mem_append.mp member with before | here
      · exact consistent.enqueued sent before
      · rw [List.mem_singleton.mp here]
        exact recorded.1
    pending := by
      intro caller event' ticket' found
      rcases still caller event' ticket' found with ⟨elsewhere, before⟩
      rcases consistent.pending caller event' ticket' before with ⟨inside, unsent⟩
      refine ⟨inside, ?_⟩
      intro sent member
      rcases List.mem_append.mp member with earlier | here
      · exact unsent sent earlier
      · rw [List.mem_singleton.mp here]
        intro same
        have number : ticket = ticket' := same
        rw [← number] at before
        exact elsewhere (consistent.apart caller thread event' event ticket before pending)
    apart := by
      intro caller other event' event'' ticket' first second
      exact consistent.apart caller other event' event'' ticket' (still _ _ _ first).2
        (still _ _ _ second).2
    accounted := by
      intro passed member
      rcases consistent.accounted passed member with sent | ⟨caller, found⟩
      · exact Or.inl (List.mem_append_left _ sent)
      · by_cases same : caller = thread
        · rw [same, pending] at found
          cases found
          exact Or.inl (List.mem_append_right _ (List.mem_singleton_self _))
        · exact Or.inr ⟨caller, (Function.update_of_ne same _ _).trans found⟩
    sent := by
      intro caller event' queued found
      rw [Function.update_apply] at found
      split at found
      · cases found
        rfl
      · exact consistent.sent caller event' queued found
    window := by
      intro signature member
      rcases window signature member with before | ⟨named, held⟩
      · rcases consistent.window signature before with ⟨held, sent, inside, named, latest⟩
        exact ⟨held, sent, List.mem_append_left _ inside, named, latest⟩
      · refine ⟨held, _, List.mem_append_right _ (List.mem_singleton_self _), named, ?_⟩
        intro other otherMember same
        exact inTurn.2 other otherMember (by rw [same]; rfl) (same.trans named.symm) }

theorem settled_of_phase (state : State) (thread : Nat) (call : Call)
    (running : state.calls thread = some call)
    (phase : ∀ ticket, call.phase ≠ .recorded ticket) : Settled (state.calls thread) := by
  intro event ticket found
  rw [running] at found
  cases found
  exact phase ticket rfl

theorem settled_none : Settled none := by
  intro event ticket found
  cases found

theorem mem_windowedAfter (state : State) (event : IngestEvent) (signature : Signature)
    (member : signature ∈ state.windowedAfter event) :
    signature ∈ state.history.windowed ∨
      event.signature = some signature ∧ state.seen.sigs.contains signature = true := by
  rw [State.windowedAfter] at member
  cases named : event.signature with
  | none =>
      rw [named] at member
      exact Or.inl member
  | some own =>
      rw [named] at member
      dsimp only at member
      split at member
      · next held =>
          rcases List.mem_cons.mp member with same | before
          · rw [same]
            exact Or.inr ⟨rfl, held⟩
          · exact Or.inl before
      · exact Or.inl member

theorem consistent_advance (state : State) (thread : Nat) (call : Call)
    (running : state.calls thread = some call) (meets : Meets state call)
    (consistent : Consistent state.seen state.calls state.history) :
    Consistent (state.advance thread call).seen (state.advance thread call).calls
      (state.advance thread call).history := by
  rcases call with ⟨event, phase⟩
  cases phase with
  | entered =>
      have settled := settled_of_phase state thread _ running (by intro ticket; simp)
      rw [State.advance]
      dsimp only
      split
      · exact consistent_setCall consistent thread none settled settled_none (by simp)
      · next fresh =>
          split
          · exact consistent_setCall consistent thread (some ⟨event, .newer⟩) settled
              (by intro event' ticket; simp) (by simp)
          · exact consistent_pass consistent thread event settled (Bool.eq_false_iff.mpr fresh)
  | newer =>
      have settled := settled_of_phase state thread _ running (by intro ticket; simp)
      exact consistent_pass consistent thread event settled meets
  | recorded ticket =>
      rw [State.advance]
      dsimp only
      rw [State.send, if_pos meets.1]
      exact consistent_send consistent thread ticket event (state.windowedAfter event) running
        meets.2 (fun signature member => mem_windowedAfter state event signature member)
  | sent queued =>
      have settled := settled_of_phase state thread _ running (by intro ticket; simp)
      exact consistent_setCall consistent thread none settled settled_none (by simp)

theorem consistent_step (state : State) (input : Input)
    (meets : ∀ call ∈ advancing state input, Meets state call)
    (consistent : Consistent state.seen state.calls state.history) :
    Consistent (state.step input).seen (state.step input).calls (state.step input).history := by
  cases input with
  | enter thread event =>
      rw [State.step]
      cases free : state.calls thread with
      | some call => exact consistent
      | none =>
          apply consistent_setCall consistent thread (some ⟨event, .entered⟩)
          · rw [free]
            exact settled_none
          · intro event' ticket
            simp
          · simp
  | advance thread =>
      rw [State.step]
      cases running : state.calls thread with
      | none => exact consistent
      | some call =>
          exact consistent_advance state thread call running (meets call running) consistent
  | receive => exact consistent
  | disconnect => exact consistent

/-- Every duplicate is of an event that is accounted for. -/
theorem covered_of_duplicate (state : State) (event : IngestEvent)
    (consistent : Consistent state.seen state.calls state.history)
    (duplicate : state.seen.duplicate event = true) :
    ∃ original ∈ state.history.passed, Covers original.2 event ∧
      Accounted state.calls state.history original := by
  rcases event with ⟨source, receivedAt, data⟩
  cases data with
  | transaction signature =>
      rcases consistent.sigs signature duplicate with ⟨original, member, named⟩
      exact ⟨original, member, Or.inl ⟨signature, named, rfl⟩, consistent.accounted _ member⟩
  | accountUpdate pubkey writeVersion =>
      rw [Seen.duplicate] at duplicate
      dsimp only at duplicate
      cases held : HashMap.get state.seen.accounts pubkey with
      | none =>
          rw [held] at duplicate
          cases duplicate
      | some version =>
          rw [held] at duplicate
          rcases consistent.accounts pubkey version held with ⟨original, member, updates⟩
          exact ⟨original, member,
            Or.inr ⟨pubkey, version, writeVersion, updates, rfl, of_decide_eq_true duplicate⟩,
            consistent.accounted _ member⟩
  | slot => cases duplicate

theorem delivers_of_consistent (state : State) (thread : Nat) (call : Call)
    (running : state.calls thread = some call) (meets : Meets state call)
    (consistent : Consistent state.seen state.calls state.history) : Delivers state call := by
  rcases call with ⟨event, phase⟩
  constructor
  · intro ticket recorded _ pubkey version updates earlier member older before
    have same : phase = .recorded ticket := recorded
    rw [same] at running meets
    have here := (consistent.pending thread event ticket running).1
    have account : earlier.2.account = some pubkey := by rw [IngestEvent.account, before]; rfl
    have own : event.account = some pubkey := by
      have named : event.update = some (pubkey, version) := updates
      rw [IngestEvent.account, named]
      rfl
    have turn := meets.2.1 earlier member (by rw [account]; rfl) (account.trans own.symm)
    exact consistent.rising earlier (consistent.enqueued earlier member) _ here turn pubkey older
      version before updates
  · intro ticket recorded _ signature named inside
    have same : phase = .recorded ticket := recorded
    rw [same] at running meets
    rcases consistent.pending thread event ticket running with ⟨here, unsent⟩
    rcases consistent.window signature inside with ⟨_, sent, member, own, latest⟩
    -- both have the signature's last ticket, and this one is not sent yet
    have above := latest _ here named
    have below := meets.2.2 sent (consistent.enqueued sent member) (by rw [own]; rfl)
      (own.trans named.symm)
    exact unsent sent member (Nat.le_antisymm below above)
  · intro queued finished
    have same : phase = .sent queued := finished
    rw [same] at running
    exact consistent.sent thread event queued running
  · intro _ duplicate
    exact covered_of_duplicate state event consistent duplicate

/-- In every interleaving whose steps meet their condition the bus delivers at every step. -/
theorem delivers_of_meets (dedupCapacity channelCapacity : Nat) (positive : 0 < dedupCapacity)
    (inputs : List Input)
    (meets : Throughout Meets (start dedupCapacity channelCapacity positive) inputs) :
    Throughout Delivers (start dedupCapacity channelCapacity positive) inputs := by
  have consistent := Runs.trace_invariant State.step
    (fun state => Consistent state.seen state.calls state.history)
    (start dedupCapacity channelCapacity positive) inputs
    (consistent_start dedupCapacity positive)
    (fun pair member kept => consistent_step pair.1 pair.2 (meets pair member) kept)
  intro pair member call advances
  rcases pair with ⟨state, input⟩
  cases input with
  | advance thread =>
      exact delivers_of_consistent state thread call advances (meets _ member call advances)
        (consistent _ member)
  | enter thread event => cases advances
  | receive => cases advances
  | disconnect => cases advances

end Preservation

def update (writeVersion : Nat) : IngestEvent :=
  ⟨.yellowstoneGrpc, 0, .accountUpdate (.ofNat 1) writeVersion⟩

def transaction (byte : UInt8) : IngestEvent :=
  ⟨.richat, 0, .transaction ⟨List.replicate 64 byte, by simp⟩⟩

/-- Two updates of one account that overlap, the second one behind the first at each step, and
a transaction with a copy. -/
def orderly : List Input :=
  [.enter 0 (update 5), .enter 1 (update 7), .advance 0, .advance 0, .advance 1, .advance 0,
    .advance 1, .enter 2 (transaction 1), .advance 2, .advance 1, .enter 3 (transaction 1),
    .advance 3, .advance 2, .advance 0, .advance 1, .advance 2]

theorem orderly_delivers : Throughout Delivers (start 10 10 (by decide)) orderly :=
  delivers_of_meets 10 10 (by decide) orderly (by unfold Throughout; decide +kernel)

/-- The second transaction finds the channel full. -/
def overfull : List Input :=
  [.enter 0 (transaction 1), .advance 0, .advance 0, .advance 0, .enter 0 (transaction 2),
    .advance 0, .advance 0]

/-- Both updates find no version recorded, and the older one comes last. -/
def racing : List Input :=
  [.enter 0 (update 5), .enter 1 (update 7), .advance 0, .advance 1, .advance 1, .advance 1,
    .advance 0]

/-- An event that was not enqueued is counted as forwarded; an older version follows a newer. -/
theorem lost_event_counted :
    ¬ Throughout Delivers (start 10 1 (by decide)) (overfull ++ [.advance 0]) ∧
      ¬ Throughout Delivers (start 10 10 (by decide)) (racing ++ [.advance 0]) := by
  constructor
  · intro delivers
    have last := delivers _ (Runs.mem_trace State.step _ overfull [] (.advance 0))
      ⟨transaction 2, .sent false⟩ (by decide +kernel)
    cases last.counted false rfl
  · intro delivers
    have last := delivers _ (Runs.mem_trace State.step _ racing [] (.advance 0))
      ⟨update 5, .recorded 1⟩ (by decide +kernel)
    have falls := last.increasing 1 rfl (by decide +kernel) (.ofNat 1) 5 rfl (0, update 7)
      (by decide +kernel) 7 rfl
    omega

end Helios.EventBus
