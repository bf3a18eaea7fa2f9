import MellivorKernel.Events.InMemoryBus
import MellivorKernel.Python.Number

/-!
# What the bus delivers

A bus has active registrations, in the order they were made. The law says what
each call of a script does to them: a registration is new when it is made, is
taken away by one `unsubscribe` or refused, and an event goes to those of its
exact type that were active when its `publish` began, once each and in order.
Each of their handlers runs its own code on the event, and whatever it does
meanwhile, the next one starts from there. Every run of every program keeps the
law, at every depth.
-/

namespace MellivorKernel

open Python Foundation

/-- Registrations with their handlers, oldest first. -/
abbrev Active (T H : Type) := List (EventRegistration T × H)

variable {E T H W : Type} [DecidableEq T] (code : BusCode E T H W)

mutual
/-- What a bus does for a script, from the active registrations and the world
before it to those after it: the steps it takes and how it ends. -/
inductive Lawful : {d : Nat} → Script E T H W d → Active T H → W →
    List (BusStep E T H) → Except Exn Unit → Active T H → W → Prop
  | returns : Lawful (.returns : Script E T H W d) A w [] (.ok ()) A w
  | raises : Lawful (.raises exc : Script E T H W d) A w [] (.error exc) A w
  | read {next : W → Script E T H W d} (rest : Lawful (next w) A w steps result B w') :
      Lawful (.read next) A w steps result B w'
  | write {next : Script E T H W d} (rest : Lawful next A world steps result B w') :
      Lawful (.write world next) A w steps result B w'
  | subscribed {next : EventRegistration T → Script E T H W d}
      (hnew : registration ∉ A.map Prod.fst) (htype : registration.eventType = t)
      (rest : Lawful (next registration) (A ++ [(registration, handler)]) w steps result B w') :
      Lawful (.subscribe t handler next) A w
        (.subscribed registration handler :: steps) result B w'
  | removed {next : Except Exn Unit → Script E T H W d} (hactive : registration ∈ A.map Prod.fst)
      (rest : Lawful (next (.ok ())) (A.filter fun p => p.1 ≠ registration) w steps result B w') :
      Lawful (.unsubscribe registration next) A w
        (.unsubscribe registration (.ok ()) :: steps) result B w'
  | refused {next : Except Exn Unit → Script E T H W d}
      (hinactive : registration ∉ A.map Prod.fst)
      (rest : Lawful (next (.error (notActive code registration))) A w steps result B w') :
      Lawful (.unsubscribe registration next) A w
        (.unsubscribe registration (.error (notActive code registration)) :: steps) result B w'
  | published {next : Except Exn Unit → Script E T H W (d + 1)}
      (delivered : deliveries.map (fun d => (d.1, d.2.1)) =
        A.filter fun p => p.1.eventType = code.typeOf event)
      (inside : LawfulInside d event A w deliveries B w')
      (rest : Lawful (next (.ok ())) B w' steps result C w'') :
      Lawful (.publish event next) A w
        (.publish event deliveries (.ok ()) :: steps) result C w''
/-- The handlers that an event is delivered to, one after the other: of each
what its own code does with the event, from where the one before it left off. -/
inductive LawfulInside : Nat → E → Active T H → W → List (Delivery E T H) → Active T H → W → Prop
  | nil : LawfulInside d event A w [] A w
  | cons (handled : Lawful (code.handle d handler event) A w steps result B w')
      (rest : LawfulInside d event B w' deliveries C w'') :
      LawfulInside d event A w ((registration, handler, steps, result) :: deliveries) C w''
end

/-- The table holds the active registrations, and their ids were generated. -/
structure BusState.Holds (s : BusState T H W) (A : Active T H) : Prop where
  table : ∀ t, (s.handlersOf t).entries =
    (A.filter fun p => p.1.eventType = t).map fun p => (p.1.registrationId, p.2)
  issued : ∀ p ∈ A, ∃ n < s.issued, p.1.registrationId = code.uuid4 n

section
variable {code} {s : BusState T H W} {A : Active T H}

theorem holds_new (world : W) : (BusState.new world : BusState T H W).Holds code [] where
  table _ := rfl
  issued := nofun

theorem BusState.Holds.mem_iff (h : s.Holds code A) {r : EventRegistration T} :
    r.registrationId ∈ s.handlersOf r.eventType ↔ r ∈ A.map Prod.fst := by
  rw [Dict.mem_def, Dict.keys, h.table, List.map_map]
  constructor
  · intro hmem
    obtain ⟨⟨q, handler⟩, hq, hid⟩ := List.mem_map.mp hmem
    obtain ⟨hA, ht⟩ := List.mem_filter.mp hq
    refine List.mem_map.mpr ⟨(q, handler), hA, ?_⟩
    cases q
    cases r
    simp_all
  · intro hmem
    obtain ⟨p, hA, rfl⟩ := List.mem_map.mp hmem
    exact List.mem_map.mpr ⟨p, List.mem_filter.mpr ⟨hA, by simp⟩, rfl⟩

theorem handlersOf_set (t : T) (handlers : Dict Str H) (issued : Nat) (t' : T) :
    ({ s with handlers := s.handlers.set t handlers, issued } : BusState T H W).handlersOf t' =
      if t' = t then handlers else s.handlersOf t' := by
  simp only [BusState.handlersOf, Dict.get?_set]
  split <;> rfl

theorem subscribe_holds (hids : Function.Injective code.uuid4) (h : s.Holds code A) (t : T)
    (handler : H) :
    (s.subscribe code t handler).1 ∉ A.map Prod.fst ∧
      (s.subscribe code t handler).2.Holds code (A ++ [((s.subscribe code t handler).1, handler)]) := by
  have hnew : code.uuid4 s.issued ∉ A.map fun p => p.1.registrationId := by
    intro hmem
    obtain ⟨p, hp, hid⟩ := List.mem_map.mp hmem
    obtain ⟨n, hn, hpn⟩ := h.issued p hp
    exact absurd (hids (hpn.symm.trans hid)) hn.ne
  have hfresh : (s.subscribe code t handler).1 ∉ A.map Prod.fst := by
    intro hmem
    obtain ⟨p, hp, hr⟩ := List.mem_map.mp hmem
    exact hnew (List.mem_map.mpr ⟨p, hp, by rw [hr]; rfl⟩)
  refine ⟨hfresh, fun t' => ?_, ?_⟩
  · have hout : (s.subscribe code t handler).1.registrationId ∉ (s.handlersOf t).keys := fun hk =>
      hfresh ((h.mem_iff (r := (s.subscribe code t handler).1)).mp hk)
    change code.uuid4 s.issued ∉ (s.handlersOf t).keys at hout
    simp only [BusState.subscribe, handlersOf_set]
    by_cases ht : t' = t
    · subst ht
      rw [if_pos rfl, Dict.entries_set_of_not_mem hout, h.table]
      simp
    · have hne : ¬ t = t' := fun he => ht he.symm
      rw [if_neg ht, h.table]
      simp [hne]
  · rintro p hp
    rcases List.mem_append.mp hp with hp | hp
    · obtain ⟨n, hn, hid⟩ := h.issued p hp
      exact ⟨n, Nat.lt_succ_of_lt hn, hid⟩
    · rw [List.mem_singleton.mp hp]
      exact ⟨s.issued, Nat.lt_succ_self _, rfl⟩

theorem unsubscribe_world (s : BusState T H W) (r : EventRegistration T) :
    (s.unsubscribe code r).2.world = s.world := by
  unfold BusState.unsubscribe
  split
  · rfl
  · split <;> rfl

theorem unsubscribe_holds (h : s.Holds code A) (r : EventRegistration T) :
    (r ∈ A.map Prod.fst ∧ (s.unsubscribe code r).1 = .ok () ∧
      (s.unsubscribe code r).2.Holds code (A.filter fun p => p.1 ≠ r)) ∨
    (r ∉ A.map Prod.fst ∧ s.unsubscribe code r = (.error (notActive code r), s)) := by
  cases hget : s.handlers.get? r.eventType with
  | none =>
    refine .inr ⟨fun hmem => ?_, by simp only [BusState.unsubscribe, hget]⟩
    have hin := h.mem_iff.mpr hmem
    simp only [BusState.handlersOf, hget, Option.getD_none] at hin
    cases hin
  | some handlers =>
    have hof : s.handlersOf r.eventType = handlers := by simp [BusState.handlersOf, hget]
    by_cases hmem : r.registrationId ∈ handlers
    · refine .inl ⟨h.mem_iff.mp (hof.symm ▸ hmem), ?_, ?_, ?_⟩
      · simp only [BusState.unsubscribe, hget, hmem, if_true]
      · intro t
        simp only [BusState.unsubscribe, hget, hmem, if_true, handlersOf_set]
        by_cases ht : t = r.eventType
        · subst ht
          rw [if_pos rfl, Dict.entries_erase, ← hof, h.table, List.filter_map, List.filter_filter,
            List.filter_filter]
          refine congrArg _ (List.filter_congr fun p _ => ?_)
          obtain ⟨⟨t, id⟩, handler⟩ := p
          obtain ⟨t', id'⟩ := r
          by_cases ht : t = t' <;> by_cases hid : id = id' <;> simp [ht, hid]
        · rw [if_neg ht, h.table, List.filter_filter]
          refine congrArg _ (List.filter_congr fun p _ => ?_)
          by_cases hp : p.1.eventType = t
          · have hne : p.1 ≠ r := fun he => ht (by rw [← hp, he])
            simp [hp, hne]
          · simp [hp]
      · rintro p hp
        have hissued : (s.unsubscribe code r).2.issued = s.issued := by
          simp only [BusState.unsubscribe, hget, hmem, if_true]
        rw [hissued]
        exact h.issued p (List.mem_of_mem_filter hp)
    · refine .inr ⟨fun hr => hmem (hof ▸ h.mem_iff.mpr hr), ?_⟩
      simp only [BusState.unsubscribe, hget, hmem, if_false]

-- ---------------------------------------------------------------------------
-- Runs
-- ---------------------------------------------------------------------------

/-- A nested `publish` returns, and delivers lawfully to whoever is active. -/
def PublishesLawfully (code : BusCode E T H W) (d : Nat)
    (nested : E → BusState T H W → BusRun T H W (Delivery E T H)) : Prop :=
  ∀ e s A, s.Holds code A → (nested e s).1.1 = .ok () ∧
    (nested e s).1.2.map (fun d => (d.1, d.2.1)) =
      A.filter (fun p => p.1.eventType = code.typeOf e) ∧
    ∃ B, LawfulInside code d e A s.world (nested e s).1.2 B (nested e s).2.world ∧
      (nested e s).2.Holds code B

theorem script_lawful (hids : Function.Injective code.uuid4)
    {nested : E → BusState T H W → BusRun T H W (Delivery E T H)} (script : Script E T H W d)
    (hnested : ∀ d', d = d' + 1 → PublishesLawfully code d' nested) (h : s.Holds code A) :
    ∃ B, Lawful code script A s.world (script.run code nested s).1.2 (script.run code nested s).1.1
        B (script.run code nested s).2.world ∧
      (script.run code nested s).2.Holds code B := by
  induction script generalizing s A with
  | returns => exact ⟨A, .returns, h⟩
  | raises exc => exact ⟨A, .raises, h⟩
  | read next ih =>
    obtain ⟨B, hsteps, hB⟩ := ih s.world hnested h
    exact ⟨B, .read hsteps, hB⟩
  | write world next ih =>
    obtain ⟨B, hsteps, hB⟩ := ih hnested (s := { s with world }) ⟨h.table, h.issued⟩
    exact ⟨B, .write hsteps, hB⟩
  | subscribe t handler next ih =>
    obtain ⟨hnew, hholds⟩ := subscribe_holds hids h t handler
    obtain ⟨B, hsteps, hB⟩ := ih (s.subscribe code t handler).1 hnested hholds
    exact ⟨B, .subscribed hnew rfl hsteps, hB⟩
  | unsubscribe r next ih =>
    simp only [Script.run]
    rcases unsubscribe_holds h r with ⟨hr, hok, hholds⟩ | ⟨hr, herror⟩
    · obtain ⟨B, hsteps, hB⟩ := ih (s.unsubscribe code r).1 hnested hholds
      have hworld : (s.unsubscribe code r).2.world = s.world := unsubscribe_world s r
      rw [hok, hworld] at hsteps
      rw [hok] at hB ⊢
      exact ⟨B, .removed hr hsteps, hB⟩
    · rw [herror]
      obtain ⟨B, hsteps, hB⟩ := ih (.error (notActive code r)) hnested h
      exact ⟨B, .refused hr hsteps, hB⟩
  | publish e next ih =>
    obtain ⟨hok, hto, B, hinside, hB⟩ := hnested _ rfl e s A h
    obtain ⟨C, hsteps, hC⟩ := ih (nested e s).1.1 hnested hB
    refine ⟨C, ?_, hC⟩
    simp only [Script.run]
    rw [hok] at hsteps ⊢
    exact .published hto hinside hsteps

theorem publishLoop_lawful (hids : Function.Injective code.uuid4)
    {nested : E → BusState T H W → BusRun T H W (Delivery E T H)}
    (hnested : ∀ d', d = d' + 1 → PublishesLawfully code d' nested) (event : E) (t : T)
    (snapshot : List (Str × H)) (h : s.Holds code A) :
    let run := publishLoop (fun h s => (code.handle d h event).run code nested s) t snapshot s
    run.1.1 = .ok () ∧
      run.1.2.map (fun d => (d.1, d.2.1)) =
        snapshot.map (fun p => ((⟨t, p.1⟩ : EventRegistration T), p.2)) ∧
      ∃ B, LawfulInside code d event A s.world run.1.2 B run.2.world ∧ run.2.Holds code B := by
  induction snapshot generalizing s A with
  | nil => exact ⟨rfl, rfl, A, .nil, h⟩
  | cons p rest ih =>
    obtain ⟨id, hd⟩ := p
    obtain ⟨B, hsteps, hB⟩ := script_lawful hids (code.handle d hd event) hnested h
    obtain ⟨hok, hto, C, hinside, hC⟩ := ih hB
    -- whether the handler returned or raised, the loop goes on
    have hrun : ∀ handler : H → BusState T H W → BusRun T H W (BusStep E T H),
        publishLoop handler t ((id, hd) :: rest) s =
          (((publishLoop handler t rest (handler hd s).2).1.1,
            (⟨t, id⟩, hd, (handler hd s).1.2, (handler hd s).1.1) ::
              (publishLoop handler t rest (handler hd s).2).1.2),
            (publishLoop handler t rest (handler hd s).2).2) := by
      intro handler
      rw [publishLoop]
      cases hr : (handler hd s).1.1 with
      | ok u => simp only [hr]
      | error exc => simp only [hr, exc.isA_exception, if_true]
    simp only [hrun]
    exact ⟨hok, by simp only [List.map_cons, hto], C, .cons hsteps hinside, hC⟩

theorem publishAt_lawful (hids : Function.Injective code.uuid4)
    {nested : E → BusState T H W → BusRun T H W (Delivery E T H)}
    (hnested : ∀ d', d = d' + 1 → PublishesLawfully code d' nested) :
    PublishesLawfully code d (publishAt code d nested) := by
  intro e s A h
  obtain ⟨hok, hto, hinside⟩ := publishLoop_lawful hids hnested e (code.typeOf e)
    (s.handlersOf (code.typeOf e)).entries h
  refine ⟨hok, ?_, hinside⟩
  rw [publishAt, hto, h.table, List.map_map]
  refine (List.map_congr_left fun p hp => ?_).trans (List.map_id _)
  have ht : p.1.eventType = code.typeOf e := by simpa using (List.mem_filter.mp hp).2
  obtain ⟨⟨t, id⟩, handler⟩ := p
  simpa using ht.symm

theorem publish_lawful (hids : Function.Injective code.uuid4) (d : Nat) :
    PublishesLawfully code d (publish code d) := by
  induction d with
  | zero => exact publishAt_lawful hids nofun
  | succ d ih =>
    exact publishAt_lawful hids fun d' hd => Nat.succ.inj hd ▸ ih

end

/-- Every program over a new bus runs lawfully, and the table holds what is
active in the end. -/
theorem runProgram_lawful {code : BusCode E T H W} (hids : Function.Injective code.uuid4)
    (program : Script E T H W (d + 1)) (world : W) :
    ∃ steps result A final,
      runProgram code program (.new world) = ((result, steps), final) ∧
      Lawful code program [] world steps result A final.world ∧ final.Holds code A := by
  have hpublish : ∀ d', d + 1 = d' + 1 → PublishesLawfully code d' (publish code d) := by
    rintro d' ⟨⟩
    exact publish_lawful hids d
  obtain ⟨A, hlawful, hholds⟩ := script_lawful hids program hpublish (holds_new world)
  exact ⟨_, _, A, _, rfl, hlawful, hholds⟩

/-- Two event types and two handlers: one takes its own registration away,
subscribes the other one and raises, the other one publishes an event of the
other type. -/
def relayCode : BusCode Bool Bool Bool Unit where
  typeOf := id
  handle
    | _, true, event =>
      .unsubscribe ⟨event, decimal 0⟩ fun _ => .subscribe event false fun _ =>
        .raises (.raised .valueError (lit "no"))
    | _ + 1, false, event => .publish (!event) fun _ => .returns
    | 0, false, _ => .returns
  uuid4 := decimal
  typeRepr _ := lit "<class 'Event'>"

def relayProgram : Script Bool Bool Bool Unit 2 :=
  .subscribe true true fun _ => .publish true fun _ => .publish true fun _ => .returns

theorem decimal_injective : Function.Injective decimal := fun m n h => by
  simpa using congrArg digitsValue h

theorem relay_lawful : ∃ steps result A final,
    runProgram relayCode relayProgram (.new ()) = ((result, steps), final) ∧
    Lawful relayCode relayProgram [] () steps result A final.world ∧ final.Holds relayCode A :=
  runProgram_lawful decimal_injective relayProgram ()

end MellivorKernel
