import DataRepository.Exchange.Traffic
import DataRepository.Proofs.Exchange.Independence
import Mathlib.Data.List.Nodup

/-! # Exchanges at the same time

Each exchange touches the store in one of its steps, where its plan is carried out, and
what it answers is settled there. So whatever the order of all steps is, the store and
the responses are those of the requests one after the other, in the order in which their
plans were carried out (`Serial`, kept by every step). A plan that is only an answer
leaves the store as it is, so its request may stand anywhere in that order. -/
namespace DataRepository

open Http (Request Response)
open Access (Gate)

def Plan.operates : Plan → Bool
  | answer _ => false
  | execute _ => true

theorem Plan.run_of_not_operates {p : Plan} (h : p.operates = false) :
    ∃ a, ∀ s, p.run s = (a, s) := by
  cases p with
  | answer a => exact ⟨a, fun _ => rfl⟩
  | execute c => cases h

namespace Exchange

variable {g : Gate} {rs : List (UInt64 × Request)} {c : UInt64 × Request} {s : Store}
  {t : Traffic} {i j : Nat} {a : Response}

def Stage.steps : Stage → Nat
  | .arrived => 0
  | .judged _ => 1
  | .planned _ => 2
  | .carriedOut _ => 3
  | .answered _ => 4

namespace Traffic

/-! ## Requests with times -/

/-- The next step of the exchange at position `i`, whose request comes at a time of its own. -/
def stepTimed (g : Gate) (rs : List (UInt64 × Request)) (t : Traffic) (i : Nat) : Traffic :=
  match rs[i]? with
  | some (now, _) => step g now t i
  | none => t

/-- The exchanges of these requests over a store, after steps of those at these positions. -/
def interleave (g : Gate) (rs : List (UInt64 × Request)) (s : Store) (schedule : List Nat) : Traffic :=
  schedule.foldl (stepTimed g rs) (ofRequests s (rs.map (·.2)))

theorem length_flights_step (now : UInt64) (t : Traffic) (i : Nat) :
    (step g now t i).flights.length = t.flights.length := by
  unfold step
  split
  · rfl
  · exact List.length_set

/-- Where the clock stands still, these are the steps of the traffic. -/
theorem interleave_map (g : Gate) (now : UInt64) (rs : List Request) (s : Store)
    (schedule : List Nat) :
    interleave g (rs.map (now, ·)) s schedule = run g now (ofRequests s rs) schedule := by
  have hrun : ∀ t : Traffic, t.flights.length = rs.length →
      schedule.foldl (stepTimed g (rs.map (now, ·))) t = run g now t schedule := by
    unfold run
    induction schedule with
    | nil => exact fun _ _ => rfl
    | cons i schedule ih =>
      intro t hlength
      have hstep : stepTimed g (rs.map (now, ·)) t i = step g now t i := by
        unfold stepTimed
        cases hr : rs[i]? with
        | some r => simp only [List.getElem?_map, hr, Option.map_some]
        | none =>
          have hnone : t.flights[i]? = none := by
            rw [List.getElem?_eq_none_iff] at hr ⊢
            omega
          simp only [List.getElem?_map, hr, Option.map_none, step, hnone]
      rw [List.foldl_cons, List.foldl_cons, hstep]
      exact ih _ ((length_flights_step now t i).trans hlength)
  have hmap : (rs.map (now, ·)).map (·.2) = rs := by simp [Function.comp_def]
  rw [interleave, hmap]
  exact hrun _ (List.length_map _)

/-- The requests at these positions, in this order. -/
def called (rs : List (UInt64 × Request)) (seq : List Nat) : List (UInt64 × Request) :=
  seq.filterMap (rs[·]?)

theorem called_append (seq seq' : List Nat) :
    called rs (seq ++ seq') = called rs seq ++ called rs seq' :=
  List.filterMap_append

theorem called_cons (hc : rs[i]? = some c) (seq : List Nat) :
    called rs (i :: seq) = c :: called rs seq := by
  rw [called, List.filterMap_cons_some hc]
  rfl

theorem length_called {seq : List Nat} (h : ∀ i ∈ seq, i < rs.length) :
    (called rs seq).length = seq.length := by
  induction seq with
  | nil => rfl
  | cons i seq ih =>
    obtain ⟨hi, hseq⟩ := List.forall_mem_cons.mp h
    rw [called_cons (List.getElem?_eq_getElem hi), List.length_cons, ih hseq, List.length_cons]

theorem replay_concat (hc : rs[i]? = some c) (seq : List Nat) :
    (replay g (called rs (seq ++ [i])) s).2 =
      (serve g c.1 c.2 (replay g (called rs seq) s).2).2 := by
  rw [called_append, called_cons hc, replay_append]
  rfl

/-! ## The order of the plans -/

/-- The response of the exchange at position `i` is that of its request after those that come before
it in the order. -/
def InTurn (g : Gate) (rs : List (UInt64 × Request)) (s : Store) (order : List Nat) (i : Nat)
    (c : UInt64 × Request) (a : Response) : Prop :=
  ∃ before after, order = before ++ i :: after ∧
    (serve g c.1 c.2 (replay g (called rs before) s).2).1 = a

/-- What is known of an exchange that has come this far. -/
def Sound (g : Gate) (rs : List (UInt64 × Request)) (s : Store) (order : List Nat) (i : Nat)
    (c : UInt64 × Request) : Stage → Prop
  | .arrived => i ∉ order
  | .judged way => i ∉ order ∧ way = passage g c.1 c.2
  | .planned plan => i ∉ order ∧ plan = Exchange.plan g c.1 c.2
  | .carriedOut a => InTurn g rs s order i c (Routing.sent c.2.method a)
  | .answered a => InTurn g rs s order i c a

/-- The exchanges have come as far as they would have one after the other, in the order of their
plans. -/
structure Serial (g : Gate) (rs : List (UInt64 × Request)) (s : Store) (t : Traffic) : Prop where
  nodup : t.order.Nodup
  within : ∀ i ∈ t.order, i < rs.length
  store : t.store = (replay g (called rs t.order) s).2
  flights : ∀ i c, rs[i]? = some c →
    ∃ stage, t.flights[i]? = some ⟨c.2, stage⟩ ∧ Sound g rs s t.order i c stage

theorem InTurn.mem {order : List Nat} (h : InTurn g rs s order i c a) : i ∈ order := by
  obtain ⟨before, after, rfl, -⟩ := h
  exact List.mem_append_right before List.mem_cons_self

theorem InTurn.append {order : List Nat} (h : InTurn g rs s order i c a) (later : List Nat) :
    InTurn g rs s (order ++ later) i c a := by
  obtain ⟨before, after, rfl, hanswer⟩ := h
  exact ⟨before, after ++ later, by simp, hanswer⟩

theorem Sound.append {order : List Nat} {stage : Stage} (h : Sound g rs s order j c stage)
    (hne : j ≠ i) : Sound g rs s (order ++ [i]) j c stage := by
  have hnot : j ∉ order → j ∉ order ++ [i] := fun hj => by simp [hj, hne]
  cases stage with
  | arrived => exact hnot h
  | judged way => exact ⟨hnot h.1, h.2⟩
  | planned plan => exact ⟨hnot h.1, h.2⟩
  | carriedOut a => exact InTurn.append h [i]
  | answered a => exact InTurn.append h [i]

theorem serial_ofRequests (g : Gate) (rs : List (UInt64 × Request)) (s : Store) :
    Serial g rs s (ofRequests s (rs.map (·.2))) where
  nodup := List.nodup_nil
  within := by simp [ofRequests]
  store := rfl
  flights i c hc := ⟨.arrived, by simp [ofRequests, hc], List.not_mem_nil⟩

/-! ## One step -/

/-- An exchange that goes on without touching the store. -/
theorem Serial.advance (h : Serial g rs s t) (hc : rs[i]? = some c) {stage : Stage}
    (hstage : Sound g rs s t.order i c stage) :
    Serial g rs s { t with flights := t.flights.set i ⟨c.2, stage⟩ } := by
  refine ⟨h.nodup, h.within, h.store, fun j d hd => ?_⟩
  obtain ⟨old, hold, hsound⟩ := h.flights j d hd
  by_cases hj : j = i
  · subst hj
    obtain rfl : c = d := Option.some.inj (hc.symm.trans hd)
    have hlt : j < t.flights.length := (List.getElem?_eq_some_iff.mp hold).1
    exact ⟨stage, List.getElem?_set_self hlt, hstage⟩
  · exact ⟨old, (List.getElem?_set_ne (Ne.symm hj)).trans hold, hsound⟩

/-- An exchange whose plan is carried out. -/
theorem Serial.carryOut (h : Serial g rs s t) (hc : rs[i]? = some c) (hi : i ∉ t.order) :
    Serial g rs s
      { store := ((plan g c.1 c.2).run t.store).2
        flights := t.flights.set i ⟨c.2, .carriedOut ((plan g c.1 c.2).run t.store).1⟩
        order := t.order ++ [i] } := by
  refine ⟨?_, ?_, ?_, fun j d hd => ?_⟩
  · exact List.nodup_append_comm.mp (List.nodup_cons.mpr ⟨hi, h.nodup⟩)
  · intro j hj
    rcases List.mem_append.mp hj with hj | hj
    · exact h.within j hj
    · rw [List.mem_singleton.mp hj]
      exact (List.getElem?_eq_some_iff.mp hc).1
  · rw [replay_concat hc, ← h.store]
    rfl
  · obtain ⟨old, hold, hsound⟩ := h.flights j d hd
    by_cases hj : j = i
    · subst hj
      obtain rfl : c = d := Option.some.inj (hc.symm.trans hd)
      have hlt : j < t.flights.length := (List.getElem?_eq_some_iff.mp hold).1
      refine ⟨_, List.getElem?_set_self hlt, t.order, [], rfl, ?_⟩
      rw [← h.store]
      rfl
    · exact ⟨old, (List.getElem?_set_ne (Ne.symm hj)).trans hold, hsound.append hj⟩

theorem Serial.step (h : Serial g rs s t) (i : Nat) : Serial g rs s (stepTimed g rs t i) := by
  unfold stepTimed
  cases hc : rs[i]? with
  | none => exact h
  | some c =>
    obtain ⟨stage, hflight, hsound⟩ := h.flights i c hc
    simp only [Traffic.step, hflight, Flight.next]
    cases stage with
    | arrived => exact h.advance hc ⟨hsound, rfl⟩
    | judged way =>
      obtain ⟨hi, rfl⟩ := hsound
      exact h.advance hc ⟨hi, rfl⟩
    | planned plan =>
      obtain ⟨hi, rfl⟩ := hsound
      exact h.carryOut hc hi
    | carriedOut a => exact h.advance hc hsound
    | answered a => exact h.advance hc hsound

/-! ## A run -/

theorem Serial.steps (h : Serial g rs s t) (schedule : List Nat) :
    Serial g rs s (schedule.foldl (stepTimed g rs) t) := by
  induction schedule generalizing t with
  | nil => exact h
  | cons i schedule ih => exact ih (h.step i)

/-- **Whatever the order of the steps is, the exchanges have come as far as one after the other.** -/
theorem serial_interleave (g : Gate) (rs : List (UInt64 × Request)) (s : Store)
    (schedule : List Nat) : Serial g rs s (interleave g rs s schedule) :=
  (serial_ofRequests g rs s).steps schedule

theorem Serial.inTurn (h : Serial g rs s t) (hc : rs[i]? = some c) (ha : t.response? i = some a) :
    InTurn g rs s t.order i c a := by
  obtain ⟨stage, hflight, hsound⟩ := h.flights i c hc
  unfold response? at ha
  rw [hflight] at ha
  cases stage with
  | answered b => exact Option.some.inj ha ▸ hsound
  | _ => cases ha

/-- An exchange has one place in the order. -/
theorem Serial.not_mem_of_split (h : Serial g rs s t) {before after : List Nat}
    (horder : t.order = before ++ i :: after) : i ∉ before ∧ i ∉ after := by
  have hnodup := h.nodup
  rw [horder, List.nodup_middle, List.nodup_cons, List.mem_append, not_or] at hnodup
  exact hnodup.1

theorem Serial.serve_eq (h : Serial g rs s t) (hc : rs[i]? = some c) (ha : t.response? i = some a)
    {before after : List Nat} (horder : t.order = before ++ i :: after) :
    (serve g c.1 c.2 (replay g (called rs before) s).2).1 = a := by
  obtain ⟨earlier, later, hsame, hanswer⟩ := h.inTurn hc ha
  obtain ⟨hbefore, hafter⟩ := h.not_mem_of_split horder
  obtain ⟨rfl, -, rfl⟩ :=
    (List.append_cons_inj_of_notMem hbefore hafter).mp (horder.symm.trans hsame)
  exact hanswer

/-! ## Another order -/

/-- Whether the request at position `i` comes to a command. -/
def operates (g : Gate) (rs : List (UInt64 × Request)) (i : Nat) : Bool :=
  match rs[i]? with
  | some (now, r) => (plan g now r).operates
  | none => false

theorem operates_eq (hc : rs[i]? = some c) : operates g rs i = (plan g c.1 c.2).operates := by
  simp only [operates, hc]

/-- A request that comes to no command gets one response and leaves every store as it is. -/
theorem serve_of_not_operates (hc : rs[i]? = some c) (h : operates g rs i = false) :
    ∃ a, ∀ s, serve g c.1 c.2 s = (a, s) := by
  rw [operates_eq hc] at h
  obtain ⟨a, ha⟩ := Plan.run_of_not_operates h
  exact ⟨Routing.sent c.2.method a, fun s => by simp only [serve, ha]⟩

theorem store_replay_filter (seq : List Nat) (s : Store) :
    (replay g (called rs (seq.filter (operates g rs))) s).2 = (replay g (called rs seq) s).2 := by
  induction seq generalizing s with
  | nil => rfl
  | cons i seq ih =>
    cases hc : rs[i]? with
    | none =>
      have hoperates : operates g rs i = false := by simp only [operates, hc]
      have hskip : called rs (i :: seq) = called rs seq := List.filterMap_cons_none hc
      rw [List.filter_cons_of_neg (by simp [hoperates]), hskip, ih]
    | some c =>
      rw [called_cons hc]
      cases hoperates : operates g rs i with
      | true =>
        rw [List.filter_cons_of_pos hoperates, called_cons hc]
        exact ih _
      | false =>
        obtain ⟨a, hserve⟩ := serve_of_not_operates hc hoperates
        rw [List.filter_cons_of_neg (by simp [hoperates]), ih]
        simp only [replay, hserve]

theorem getElem?_replay (hc : rs[i]? = some c) {before : List Nat}
    (hbefore : ∀ j ∈ before, j < rs.length) (after : List Nat) :
    (replay g (called rs (before ++ i :: after)) s).1[before.length]? =
      some (serve g c.1 c.2 (replay g (called rs before) s).2).1 := by
  have hlength : (replay g (called rs before) s).1.length = before.length := by
    rw [length_replay, length_called hbefore]
  rw [called_append, called_cons hc, replay_append, List.getElem?_append_right (Nat.le_of_eq hlength),
    hlength, Nat.sub_self]
  rfl

/-- **The store and the responses are those of the requests one after the other**, in any order that
has the commands as they were executed. -/
theorem Serial.replay_eq (h : Serial g rs s t) {seq : List Nat} (hwithin : ∀ i ∈ seq, i < rs.length)
    (hseq : seq.filter (operates g rs) = t.order.filter (operates g rs)) :
    (replay g (called rs seq) s).2 = t.store ∧
      ∀ (k i : Nat) (a : Response), seq[k]? = some i → t.response? i = some a →
        (replay g (called rs seq) s).1[k]? = some a := by
  constructor
  · rw [h.store, ← store_replay_filter seq, hseq, store_replay_filter]
  · intro k i a hk ha
    obtain ⟨hlt, hget⟩ := List.getElem?_eq_some_iff.mp hk
    have hsplit : seq = seq.take k ++ i :: seq.drop (k + 1) := by
      rw [← hget, ← List.drop_eq_getElem_cons hlt, List.take_append_drop]
    have htake : ∀ j ∈ seq.take k, j < rs.length := fun j hj => hwithin j (List.mem_of_mem_take hj)
    have hc := List.getElem?_eq_getElem (hwithin i (List.mem_of_getElem? hk))
    obtain ⟨before, after, horder, rfl⟩ := h.inTurn hc ha
    have hanswer := getElem?_replay (g := g) (s := s) hc htake (seq.drop (k + 1))
    rw [← hsplit, List.length_take_of_le (Nat.le_of_lt hlt)] at hanswer
    rw [hanswer]
    cases hoperates : operates g rs i with
    | false =>
      obtain ⟨b, hserve⟩ := serve_of_not_operates hc hoperates
      simp only [hserve]
    | true =>
      -- The commands before this one are the same in both orders, since it occurs in each once.
      obtain ⟨hbefore, hafter⟩ := h.not_mem_of_split horder
      rw [hsplit, horder, List.filter_append, List.filter_append, List.filter_cons_of_pos hoperates,
        List.filter_cons_of_pos hoperates] at hseq
      have hsame := (List.append_cons_inj_of_notMem
        (fun hi => hbefore (List.mem_of_mem_filter hi))
        (fun hi => hafter (List.mem_of_mem_filter hi))).mp hseq.symm
      rw [← store_replay_filter (seq.take k), ← hsame.1, store_replay_filter]

/-! ## Exchanges that are answered -/

theorem steps_next (now : UInt64) (f : Flight) (s : Store) :
    (f.next g now s).1.stage.steps = min 4 (f.stage.steps + 1) := by
  obtain ⟨r, stage⟩ := f
  cases stage <;> rfl

theorem flight_stepTimed {f : Flight} (hc : rs[i]? = some c) (hf : t.flights[i]? = some f) (j : Nat) :
    (stepTimed g rs t j).flights[i]? = some (if j = i then (f.next g c.1 t.store).1 else f) := by
  unfold stepTimed
  by_cases hj : j = i
  · subst hj
    have hlt : j < t.flights.length := (List.getElem?_eq_some_iff.mp hf).1
    simp only [hc, Traffic.step, hf, if_true]
    exact List.getElem?_set_self hlt
  · rw [if_neg hj]
    split
    · unfold Traffic.step
      split
      · exact hf
      · exact (List.getElem?_set_ne hj).trans hf
    · exact hf

/-- The exchange at this position has made as many steps, or more than four and is answered. -/
def Made (t : Traffic) (i : Nat) (k : Nat) : Prop :=
  ∃ f, t.flights[i]? = some f ∧ f.stage.steps = min 4 k

theorem made_ofRequests (hc : rs[i]? = some c) (s : Store) : Made (ofRequests s (rs.map (·.2))) i 0 :=
  ⟨⟨c.2, .arrived⟩, by simp [ofRequests, hc], rfl⟩

theorem Made.step {k : Nat} (h : Made t i k) (hc : rs[i]? = some c) (j : Nat) :
    Made (stepTimed g rs t j) i (k + if j = i then 1 else 0) := by
  obtain ⟨f, hf, hsteps⟩ := h
  refine ⟨_, flight_stepTimed hc hf j, ?_⟩
  by_cases hj : j = i
  · rw [if_pos hj, if_pos hj, steps_next, hsteps]
    omega
  · rw [if_neg hj, if_neg hj, hsteps, Nat.add_zero]

theorem Made.steps {k : Nat} (h : Made t i k) (hc : rs[i]? = some c) (schedule : List Nat) :
    Made (schedule.foldl (stepTimed g rs) t) i (k + schedule.count i) := by
  induction schedule generalizing t k with
  | nil => exact h
  | cons j schedule ih =>
    have hnext := ih (h.step (g := g) hc j)
    rw [List.foldl_cons, List.count_cons]
    simp only [beq_iff_eq]
    rwa [Nat.add_assoc, Nat.add_comm (ite _ _ _)] at hnext

theorem Made.isSome_response?_iff {k : Nat} (h : Made t i k) : (t.response? i).isSome ↔ 4 ≤ k := by
  obtain ⟨⟨r, stage⟩, hf, hsteps⟩ := h
  have hanswered : (t.response? i).isSome ↔ stage.steps = 4 := by
    unfold response?
    rw [hf]
    cases stage <;> simp [Stage.steps]
  rw [hanswered, hsteps]
  omega

/-- **An exchange that has made four steps is answered**, and no other is. -/
theorem isSome_response?_iff (hi : i < rs.length) (schedule : List Nat) :
    ((interleave g rs s schedule).response? i).isSome ↔ 4 ≤ schedule.count i := by
  have hc := List.getElem?_eq_getElem hi
  have hmade := (made_ofRequests hc s).steps (g := g) hc schedule
  rw [Nat.zero_add] at hmade
  exact hmade.isSome_response?_iff

/-! ## The third steps -/

/-- The positions of these steps that are the third of their exchange, after the steps before. -/
def thirdsAfter (before : List Nat) : List Nat → List Nat
  | [] => []
  | i :: rest =>
    if before.count i = 2 then i :: thirdsAfter (i :: before) rest else thirdsAfter (i :: before) rest

theorem order_stepTimed {k : Nat} (h : Made t i k) (hc : rs[i]? = some c) :
    (stepTimed g rs t i).order = if k = 2 then t.order ++ [i] else t.order := by
  obtain ⟨⟨r, stage⟩, hf, hsteps⟩ := h
  have hplanned : stage.isPlanned = decide (k = 2) := by
    cases stage <;> simp only [Stage.steps] at hsteps <;>
      simp only [Stage.isPlanned, true_eq_decide_iff, false_eq_decide_iff] <;> omega
  simp only [stepTimed, hc, Traffic.step, hf, hplanned, decide_eq_true_eq]

theorem order_steps (before : List Nat)
    (hmade : ∀ i c, rs[i]? = some c → Made t i (before.count i)) (schedule : List Nat) :
    (schedule.foldl (stepTimed g rs) t).order =
      t.order ++ (thirdsAfter before schedule).filter (· < rs.length) := by
  induction schedule generalizing t before with
  | nil => exact (List.append_nil _).symm
  | cons i schedule ih =>
    have hnext : ∀ j c, rs[j]? = some c → Made (stepTimed g rs t i) j ((i :: before).count j) := by
      intro j c hc
      have hstep := (hmade j c hc).step (g := g) hc i
      rw [List.count_cons]
      simpa only [beq_iff_eq] using hstep
    rw [List.foldl_cons, ih (i :: before) hnext, thirdsAfter]
    cases hc : rs[i]? with
    | none =>
      have hlt : ¬ i < rs.length := Nat.not_lt.mpr (List.getElem?_eq_none_iff.mp hc)
      have hstep : stepTimed g rs t i = t := by simp only [stepTimed, hc]
      rw [hstep]
      split
      · rw [List.filter_cons_of_neg (by simpa using hlt)]
      · rfl
    | some c =>
      have hlt : i < rs.length := (List.getElem?_eq_some_iff.mp hc).1
      rw [order_stepTimed (hmade i c hc) hc]
      split
      · rw [List.filter_cons_of_pos (by simpa using hlt), List.append_assoc, List.singleton_append]
      · rfl

/-- The order is that of the third steps: it depends on no request. -/
theorem order_interleave (g : Gate) (rs : List (UInt64 × Request)) (s : Store)
    (schedule : List Nat) :
    (interleave g rs s schedule).order = (thirdsAfter [] schedule).filter (· < rs.length) :=
  order_steps [] (fun _ _ hc => made_ofRequests hc s) schedule

end Traffic

end Exchange

end DataRepository
