import GnyProxy.Upstream

/-!
# Frames that nobody asked for

On the side of the client a `Multiconn` creates a virtual connection for every id that it does not
know, out of data whose scope ended when the call that opened the socket returned.  This happens
exactly in the runs in which the peer sends such a frame.
-/

namespace GnyProxy

namespace Upstream

variable {γ δ σ : Type}

/-- The generator that is handed over. -/
def Event.offered : Event γ δ σ → Option γ
  | .call event _ => event.offered
  | _ => none

/-- Every virtual connection was created from data in scope, and no generator has two owners. -/
structure Sound (upstream : Upstream γ δ σ) : Prop where
  inScope : ∀ wrapper, ∀ creation ∈ upstream.creations wrapper, creation.inScope = true
  owned : ∀ id id' endpoint endpoint' gen,
    upstream.session.requester.Attached id endpoint gen →
    upstream.session.requester.Attached id' endpoint' gen → id = id'

variable [RequestGenerator γ σ] [Connection δ σ] {config : Requester.Config}
  {upstream next last : Upstream γ δ σ}

/-- In a whole run the peer sends frames only for virtual connections that are there. -/
def Solicited (config : Requester.Config) : Upstream γ δ σ → List (Event γ δ σ) → Prop
  | _, [] => True
  | upstream, event :: events => upstream.Solicits event ∧
      ∀ next, upstream.step config event = .ok next → Solicited config next events

/-- What a run keeps as long as the peer does. -/
structure Orderly (config : Requester.Config) (upstream : Upstream γ δ σ) : Prop where
  kept : upstream.Kept config
  session : upstream.session.Invariant config
  inScope : ∀ wrapper, ∀ creation ∈ upstream.creations wrapper, creation.inScope = true

omit [RequestGenerator γ σ] [Connection δ σ] in
theorem Orderly.sound (orderly : upstream.Orderly config) : upstream.Sound where
  inScope := orderly.inScope
  owned _ _ _ _ _ attached attached' :=
    (orderly.session.assigned.once _ _ _ _ _ attached attached').1

theorem Orderly.step (orderly : upstream.Orderly config) {event : Event γ δ σ}
    (unknown : ∀ gen ∈ event.offered, ∀ endpoint, (endpoint, gen) ∉ upstream.session.accepted)
    (solicits : upstream.Solicits event) (outcome : upstream.step config event = .ok next) :
    next.Orderly config := by
  have kept := orderly.kept.step outcome
  cases event with
  | call event pending =>
      rcases bind_eq_ok.mp outcome with ⟨session, called, outcome⟩
      cases outcome
      refine ⟨kept, orderly.session.step unknown called, fun wrapper creation member => ?_⟩
      rcases List.mem_append.mp member with before | new
      · exact orderly.inScope wrapper creation before
      · rcases List.mem_map.mp new with ⟨id, -, rfl⟩
        rfl
  | receive wrapper bytes =>
      cases outcome
      exact ⟨kept, orderly.session, orderly.inScope⟩
  | operate wrapper operation =>
      rcases operate_cases orderly.kept outcome with ⟨-, rfl | ⟨-, rfl⟩⟩ | ⟨unsolicited, -⟩
      · exact orderly
      · exact ⟨kept, orderly.session, orderly.inScope⟩
      · exact absurd solicits unsolicited

/-- A frame that nobody asked for leaves a virtual connection that was created out of scope. -/
theorem not_inScope_step (kept : upstream.Kept config) {event : Event γ δ σ}
    (unsolicited : ¬upstream.Solicits event) (outcome : upstream.step config event = .ok next) :
    ∃ wrapper, ∃ creation ∈ next.creations wrapper, creation.inScope = false := by
  cases event with
  | call event pending => exact absurd trivial unsolicited
  | receive wrapper bytes => exact absurd trivial unsolicited
  | operate wrapper operation =>
      rcases operate_cases kept outcome with ⟨solicits, -⟩ |
        ⟨-, endpoint, vconn, id, data, -, -, -, -, rfl⟩
      · exact absurd solicits unsolicited
      · exact ⟨wrapper, _, by simp only [Function.update_self]; exact List.mem_concat_self, rfl⟩

/-- Only a generator that is handed over can be accepted. -/
theorem accepted_step (kept : upstream.Kept config) {event : Event γ δ σ}
    (outcome : upstream.step config event = .ok next) :
    ∀ pair ∈ next.session.accepted,
      pair ∈ upstream.session.accepted ∨ event.offered = some pair.2 := by
  intro pair member
  cases event with
  | call event pending =>
      rcases bind_eq_ok.mp outcome with ⟨session, called, outcome⟩
      cases outcome
      exact Requester.Session.accepted_step called pair member
  | receive wrapper bytes =>
      cases outcome
      exact Or.inl member
  | operate wrapper operation =>
      left
      rcases operate_cases kept outcome with ⟨-, rfl | ⟨-, rfl⟩⟩ |
        ⟨-, endpoint, vconn, id, data, -, -, -, -, rfl⟩
      · exact member
      · exact member
      · exact member

/-- From a state in order, a run ends sound exactly when the peer stays within the ids in use. -/
theorem Orderly.run_iff (orderly : upstream.Orderly config) {events : List (Event γ δ σ)}
    (fresh : (events.filterMap Event.offered).Nodup)
    (unknown : ∀ gen ∈ events.filterMap Event.offered, ∀ endpoint,
      (endpoint, gen) ∉ upstream.session.accepted)
    (outcome : upstream.run config events = .ok last) :
    last.Sound ↔ Solicited config upstream events := by
  induction events generalizing upstream with
  | nil =>
      cases outcome
      exact iff_of_true orderly.sound trivial
  | cons event events ih =>
      rcases bind_eq_ok.mp outcome with ⟨next, stepped, outcome⟩
      have only : Solicited config upstream (event :: events) ↔
          upstream.Solicits event ∧ Solicited config next events := by
        rw [Solicited, stepped]
        simp
      have here (gen : γ) (offered : gen ∈ event.offered) :
          gen ∈ (event :: events).filterMap Event.offered :=
        List.mem_filterMap.mpr ⟨event, List.mem_cons_self, offered⟩
      have later (gen : γ) (offered : gen ∈ events.filterMap Event.offered) :
          gen ∈ (event :: events).filterMap Event.offered := by
        rcases List.mem_filterMap.mp offered with ⟨event', member, offered⟩
        exact List.mem_filterMap.mpr ⟨event', List.mem_cons_of_mem _ member, offered⟩
      rw [only]
      by_cases solicits : upstream.Solicits event
      · have orderly' := orderly.step (fun gen offered => unknown gen (here gen offered)) solicits
          stepped
        have fresh' : (events.filterMap Event.offered).Nodup := by
          rw [List.filterMap_cons] at fresh
          split at fresh
          · exact fresh
          · exact (List.nodup_cons.mp fresh).2
        have unknown' (gen : γ) (offered : gen ∈ events.filterMap Event.offered)
            (endpoint : Endpoint) : (endpoint, gen) ∉ next.session.accepted := by
          intro member
          rcases accepted_step orderly.kept stepped _ member with before | now
          · exact unknown gen (later gen offered) endpoint before
          · rw [List.filterMap_cons, now] at fresh
            exact (List.nodup_cons.mp fresh).1 offered
        rw [ih orderly' fresh' unknown' outcome]
        simp [solicits]
      · rcases not_inScope_step orderly.kept solicits stepped with ⟨wrapper, creation, member, dead⟩
        have grown := creations_run (orderly.kept.step stepped) outcome wrapper
        refine iff_of_false (fun sound => ?_) fun solicited => solicits solicited.1
        have scope := sound.inScope wrapper creation (grown.subset member)
        rw [dead] at scope
        cases scope

/-- In every run that hands over each generator once, all virtual connections were created from
data in scope, and no generator has two owners, exactly when the peer sends frames only for ids in
use. -/
theorem sound_iff (config : Requester.Config) (state : σ) (events : List (Event γ δ σ))
    (last : Upstream γ δ σ) (fresh : (events.filterMap Event.offered).Nodup)
    (outcome : (start state : Upstream γ δ σ).run config events = .ok last) :
    last.Sound ↔ Solicited config (start state : Upstream γ δ σ) events := by
  have orderly : (start state : Upstream γ δ σ).Orderly config :=
    ⟨kept_start state, Requester.Session.invariant_start state, fun _ _ member => by cases member⟩
  exact orderly.run_iff fresh (fun _ _ _ => by simp [start]) outcome

/-! ## A frame for an id that is not in use -/

/-- A request is sent upstream, and the peer answers on this id. -/
def answeredOn (id : UInt8) : List (Event Nat Empty Unit) :=
  [.call (.addRequest ([], []) 0 true) [], .receive 0 [id, 0, 1, 72],
    .operate 0 (.read ⟨1024, 2, true, true, 1, []⟩)]

def multiplexed : Requester.Config := ⟨.v11, .v11, true, 1, id⟩

theorem sound_iff_answered : ∃ last,
    @run _ _ _ Requester.silent Requester.unconnected multiplexed (start ()) (answeredOn 0) =
      .ok last ∧
    (last.Sound ↔ @Solicited _ _ _ Requester.silent Requester.unconnected multiplexed (start ())
      (answeredOn 0)) :=
  ⟨_, rfl, @sound_iff _ _ _ Requester.silent Requester.unconnected multiplexed () (answeredOn 0) _
    (by decide) rfl⟩

/-- The frame creates a second `ReqLinker` out of scope, with the generator of the first. -/
theorem not_sound_unsolicited : ∃ last,
    @run _ _ _ Requester.silent Requester.unconnected multiplexed (start ()) (answeredOn 5) =
      .ok last ∧
    (∃ creation ∈ last.creations 0, creation.inScope = false) ∧
    last.session.requester.Attached 1 ([], []) 0 ∧ last.session.requester.Attached 2 ([], []) 0 ∧
    ¬last.Sound := by
  have outcome : ∃ last, @run _ _ _ Requester.silent Requester.unconnected multiplexed (start ())
      (answeredOn 5) = .ok last ∧ last.creations 0 = [⟨0, 0, true⟩, ⟨5, 0, false⟩] ∧
        last.session.requester.Attached 1 ([], []) 0 ∧
        last.session.requester.Attached 2 ([], []) 0 :=
    ⟨_, rfl, rfl, ⟨_, rfl, rfl, rfl⟩, ⟨_, rfl, rfl, rfl⟩⟩
  rcases outcome with ⟨last, outcome, creations, first, second⟩
  refine ⟨last, outcome, ⟨⟨5, 0, false⟩, by simp [creations], rfl⟩, first, second, fun sound => ?_⟩
  exact absurd (sound.owned 1 2 _ _ 0 first second) (by decide)

end Upstream
end GnyProxy
