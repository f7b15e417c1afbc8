import Otomai.DataReader.D2o
import Otomai.Trace.Program
import Otomai.Wire.Link

/-!
# Messages between the servers

Each world server is a client of the authentication server, over a connection of its own: its envelopes go to one
channel there, from which they are handled one after the other, and an answer goes back over the connection of the
envelope it answers.  The tasks that write and read, the connections and the handler take their steps in any order.

* `Inv.run`: what holds of all runs.
* `envelopes_delivered`: the envelopes that the handler and the clients get.
-/

namespace Otomai.Ipc

open Wire Trace

/-! ### The system -/

structure IpcEnvelope where
  msgType : String
  payload : DataReader.Value

/-- `serde_json::to_vec` and `serde_json::from_slice` of envelopes. -/
structure Json where
  toVec : IpcEnvelope → Option (List UInt8)
  fromSlice : List UInt8 → Option IpcEnvelope

/-- Both sides give up on more than a million bytes. -/
def Json.packing (json : Json) : Packing IpcEnvelope := ⟨json.toVec, json.fromSlice, 1000000⟩

/-- What the client writes, and what the server writes. -/
structure Connection where
  up : Link IpcEnvelope
  down : Link IpcEnvelope

def Connection.new : Connection := ⟨.new, .new⟩

structure System where
  json : Json
  connections : List Connection
  /-- The channel of the server: each envelope with the connection that its answers go to. -/
  incoming : List (Nat × IpcEnvelope)
  /-- What the handler has taken from the channel. -/
  handled : List (Nat × IpcEnvelope)
  /-- All answers, each with the number of the envelope it answers. -/
  answers : List (Nat × IpcEnvelope)

inductive Event where
  | connect
  /-- `IpcClient::send`. -/
  | send (i : Nat) (e : IpcEnvelope)
  /-- `server::send`, to the sender of an envelope. -/
  | answer (j : Nat) (e : IpcEnvelope)
  | up (i : Nat) (t : Link.Step)
  | down (i : Nat) (t : Link.Step)
  | handle

def System.start (json : Json) : System := ⟨json, [], [], [], []⟩

/-- The step of the reader of the server, which aborts the writer when it stops. -/
def Connection.stepUp (json : Json) (c : Connection) (t : Link.Step) : Connection :=
  let up := c.up.step json.packing t
  if up.receiver = .stopped then ⟨up, c.down.step json.packing (.cut c.down.stream.length)⟩ else ⟨up, c.down⟩

/-- The envelopes that come out of a step of the reader of the server. -/
def System.arriving (s : System) (i : Nat) (t : Link.Step) : List (Nat × IpcEnvelope) :=
  match s.connections[i]? with
  | some c => ((c.stepUp s.json t).up.got.drop c.up.got.length).map fun e => (i, e)
  | none => []

def System.step (s : System) : Event → System
  | .connect => { s with connections := s.connections ++ [Connection.new] }
  | .send i e => { s with connections := s.connections.modify i fun c => { c with up := c.up.give e } }
  | .answer j e =>
    match s.handled[j]? with
    | some (i, _) =>
      { s with
        connections := s.connections.modify i fun c => { c with down := c.down.give e }
        answers := s.answers ++ [(j, e)] }
    | none => s
  | .up i t =>
    { s with
      connections := s.connections.modify i fun c => c.stepUp s.json t
      incoming := s.incoming ++ s.arriving i t }
  | .down i t =>
    { s with connections := s.connections.modify i fun c => { c with down := c.down.step s.json.packing t } }
  | .handle =>
    match s.incoming with
    | e :: incoming => { s with incoming, handled := s.handled ++ [e] }
    | [] => s

instance : Acts System Event := ⟨System.step⟩

/-! ### What holds of all runs -/

/-- The envelopes of a connection, in order. -/
def ofConnection (i : Nat) (es : List (Nat × IpcEnvelope)) : List IpcEnvelope :=
  (es.filter fun p => p.1 = i).map Prod.snd

/-- The answers to envelopes of a connection. -/
def System.answersTo (s : System) (i : Nat) : List IpcEnvelope :=
  (s.answers.filter fun a => s.handled[a.1]?.map Prod.fst = some i).map Prod.snd

/-- What holds of a connection. -/
structure Connection.Holds (json : Json) (c : Connection) : Prop where
  up : (∀ e ∈ c.up.given, json.packing.Sized e) → c.up.Inv json.packing
  down : (∀ e ∈ c.down.given, json.packing.Sized e) → c.down.Inv json.packing

structure Inv (s : System) : Prop where
  links : ∀ (i : Nat) (c : Connection), s.connections[i]? = some c → c.Holds s.json
  arrived : ∀ (i : Nat) (c : Connection), s.connections[i]? = some c →
    ofConnection i (s.handled ++ s.incoming) = c.up.got
  known : ∀ p ∈ s.handled ++ s.incoming, p.1 < s.connections.length
  answered : ∀ (i : Nat) (c : Connection), s.connections[i]? = some c → c.down.given = s.answersTo i
  numbered : ∀ a ∈ s.answers, a.1 < s.handled.length

variable {s : System} {json : Json} {c : Connection}

theorem getElem?_modify_cases {α : Type} {l : List α} {i j : Nat} {f : α → α} {b : α}
    (h : (l.modify i f)[j]? = some b) : (j = i ∧ ∃ a, l[i]? = some a ∧ b = f a) ∨ (j ≠ i ∧ l[j]? = some b) := by
  rw [List.getElem?_modify] at h
  by_cases hij : i = j
  · subst hij
    simp only [↓reduceIte, Option.map_eq_map, Option.map_eq_some_iff] at h
    obtain ⟨a, ha, rfl⟩ := h
    exact .inl ⟨rfl, a, ha, rfl⟩
  · simp only [hij, ↓reduceIte, Option.map_eq_map, Option.map_id'] at h
    exact .inr ⟨Ne.symm hij, h⟩

namespace Connection.Holds

theorem new : Connection.new.Holds json :=
  ⟨fun _ => ⟨[], [], Link.splits_new⟩, fun _ => ⟨[], [], Link.splits_new⟩⟩

theorem give_up (h : c.Holds json) (e : IpcEnvelope) : Connection.Holds json { c with up := c.up.give e } where
  up := fun hsized => by
    obtain ⟨done, rest, hsplits⟩ := h.up fun e' he' => hsized e' (List.mem_append_left _ he')
    exact ⟨done, _, hsplits.give e⟩
  down := h.down

theorem give_down (h : c.Holds json) (e : IpcEnvelope) : Connection.Holds json { c with down := c.down.give e } where
  up := h.up
  down := fun hsized => by
    obtain ⟨done, rest, hsplits⟩ := h.down fun e' he' => hsized e' (List.mem_append_left _ he')
    exact ⟨done, _, hsplits.give e⟩

theorem step_down (h : c.Holds json) (t : Link.Step) :
    Connection.Holds json { c with down := c.down.step json.packing t } where
  up := h.up
  down := fun hsized => by
    have hgiven : (c.down.step json.packing t).given = c.down.given := Link.given_step t
    exact (h.down (hgiven ▸ hsized)).step (hgiven ▸ hsized) t

theorem step_up (h : c.Holds json) (t : Link.Step) : (c.stepUp json t).Holds json := by
  have hgiven : (c.up.step json.packing t).given = c.up.given := Link.given_step t
  have hup : Connection.Holds json { c with up := c.up.step json.packing t } :=
    ⟨fun hsized => (h.up (hgiven ▸ hsized)).step (hgiven ▸ hsized) t, h.down⟩
  unfold Connection.stepUp
  dsimp only
  split_ifs
  · exact hup.step_down _
  · exact hup

end Connection.Holds

theorem stepUp_up (t : Link.Step) : (c.stepUp json t).up = c.up.step json.packing t := by
  unfold Connection.stepUp
  dsimp only
  split_ifs <;> rfl

theorem given_stepUp_down (t : Link.Step) : (c.stepUp json t).down.given = c.down.given := by
  unfold Connection.stepUp
  dsimp only
  split_ifs
  · exact Link.given_step _
  · rfl

theorem inv_start : Inv (System.start json) where
  links := fun _ _ h => by cases h
  arrived := fun _ _ h => by cases h
  known := fun _ h => absurd h List.not_mem_nil
  answered := fun _ _ h => by cases h
  numbered := fun _ h => absurd h List.not_mem_nil

/-- One connection changes, and some envelopes come out of it. -/
theorem Inv.modify (h : Inv s) {i : Nat} {f : Connection → Connection}
    (hholds : ∀ c, s.connections[i]? = some c → (f c).Holds s.json)
    (hgiven : ∀ c, s.connections[i]? = some c → (f c).down.given = c.down.given) {out : List IpcEnvelope}
    (hout : ∀ c, s.connections[i]? = some c → (f c).up.got = c.up.got ++ out)
    (hnone : s.connections[i]? = none → out = []) :
    Inv { s with
      connections := s.connections.modify i f
      incoming := s.incoming ++ out.map fun e => (i, e) } where
  links := fun j d hd => by
    rcases getElem?_modify_cases hd with ⟨rfl, c, hc, rfl⟩ | ⟨-, hd⟩
    · exact hholds c hc
    · exact h.links j d hd
  arrived := fun j d hd => by
    have hsplit (k : Nat) : ofConnection k (s.handled ++ (s.incoming ++ out.map fun e => (i, e))) =
        ofConnection k (s.handled ++ s.incoming) ++ if i = k then out else [] := by
      rw [← List.append_assoc, ofConnection, List.filter_append, List.map_append]
      congr 1
      by_cases hik : i = k
      · simp [hik, List.filter_map, Function.comp_def]
      · simp [hik, List.filter_map, Function.comp_def]
    rw [hsplit]
    rcases getElem?_modify_cases hd with ⟨rfl, c, hc, rfl⟩ | ⟨hne, hd⟩
    · rw [if_pos rfl, h.arrived j c hc, hout c hc]
    · rw [if_neg (Ne.symm hne), List.append_nil, h.arrived j d hd]
  known := fun p hp => by
    rw [List.length_modify]
    rcases List.mem_append.1 hp with hp | hp
    · exact h.known p (List.mem_append_left _ hp)
    · rcases List.mem_append.1 hp with hp | hp
      · exact h.known p (List.mem_append_right _ hp)
      · obtain ⟨e, he, rfl⟩ := List.mem_map.1 hp
        cases hc : s.connections[i]? with
        | none =>
          rw [hnone hc] at he
          cases he
        | some c => exact (List.getElem?_eq_some_iff.1 hc).1
  answered := fun j d hd => by
    rcases getElem?_modify_cases hd with ⟨rfl, c, hc, rfl⟩ | ⟨-, hd⟩
    · exact (hgiven c hc).trans (h.answered j c hc)
    · exact h.answered j d hd
  numbered := h.numbered

/-- One connection changes, and nothing comes out of it. -/
theorem Inv.modify_silent (h : Inv s) {i : Nat} {f : Connection → Connection}
    (hholds : ∀ c, s.connections[i]? = some c → (f c).Holds s.json) (hgiven : ∀ c, (f c).down.given = c.down.given)
    (hgot : ∀ c, (f c).up.got = c.up.got) : Inv { s with connections := s.connections.modify i f } := by
  have hmodify := @Inv.modify s h i f hholds (fun c _ => hgiven c) [] (fun c _ => by rw [hgot, List.append_nil])
    fun _ => rfl
  rw [List.map_nil, List.append_nil] at hmodify
  exact hmodify

theorem Inv.connect (h : Inv s) : Inv { s with connections := s.connections ++ [Connection.new] } := by
  have hcases {i : Nat} {c : Connection} (hc : (s.connections ++ [Connection.new])[i]? = some c) :
      s.connections[i]? = some c ∨ i = s.connections.length ∧ c = Connection.new := by
    by_cases hi : i < s.connections.length
    · rw [List.getElem?_append_left hi] at hc
      exact .inl hc
    · rw [List.getElem?_append_right (Nat.not_lt.1 hi), List.getElem?_singleton] at hc
      split_ifs at hc with hlast
      · exact .inr ⟨by omega, (Option.some.inj hc).symm⟩
  refine ⟨fun i c hc => ?_, fun i c hc => ?_, fun p hp => ?_, fun i c hc => ?_, h.numbered⟩
  · rcases hcases hc with hc | ⟨-, rfl⟩
    · exact h.links i c hc
    · exact Connection.Holds.new
  · rcases hcases hc with hc | ⟨rfl, rfl⟩
    · exact h.arrived i c hc
    · refine List.map_eq_nil_iff.2 (List.filter_eq_nil_iff.2 fun p hp heq => ?_)
      exact absurd (h.known p hp) (by rw [of_decide_eq_true heq]; omega)
  · rw [List.length_append]
    exact Nat.lt_add_right _ (h.known p hp)
  · rcases hcases hc with hc | ⟨rfl, rfl⟩
    · exact h.answered i c hc
    · symm
      refine List.map_eq_nil_iff.2 (List.filter_eq_nil_iff.2 fun a ha heq => ?_)
      obtain ⟨p, hp, hfirst⟩ := Option.map_eq_some_iff.1 (of_decide_eq_true heq)
      have hlt := h.known p (List.mem_append_left _ (List.mem_of_getElem? hp))
      omega

/-- An answer goes to the connection of the envelope it answers. -/
theorem Inv.answer (h : Inv s) {j i : Nat} (hj : s.handled[j]?.map Prod.fst = some i) (e' : IpcEnvelope) :
    Inv { s with
      connections := s.connections.modify i fun c => { c with down := c.down.give e' }
      answers := s.answers ++ [(j, e')] } := by
  have hsplit (k : Nat) : System.answersTo { s with answers := s.answers ++ [(j, e')] } k =
      s.answersTo k ++ if i = k then [e'] else [] := by
    rw [System.answersTo, List.filter_append, List.map_append]
    congr 1
    by_cases hik : i = k
    · simp [hj, hik]
    · simp [hj, hik]
  refine ⟨fun k c hc => ?_, fun k c hc => ?_, fun p hp => ?_, fun k c hc => ?_, fun a ha => ?_⟩
  · rcases getElem?_modify_cases hc with ⟨rfl, d, hd, rfl⟩ | ⟨-, hc⟩
    · exact (h.links k d hd).give_down e'
    · exact h.links k c hc
  · rcases getElem?_modify_cases hc with ⟨rfl, d, hd, rfl⟩ | ⟨-, hc⟩
    · exact h.arrived k d hd
    · exact h.arrived k c hc
  · rw [List.length_modify]
    exact h.known p hp
  · show c.down.given = System.answersTo { s with answers := s.answers ++ [(j, e')] } k
    rw [hsplit]
    rcases getElem?_modify_cases hc with ⟨rfl, d, hd, rfl⟩ | ⟨hne, hc⟩
    · rw [if_pos rfl, ← h.answered k d hd]
      rfl
    · rw [if_neg (Ne.symm hne), List.append_nil]
      exact h.answered k c hc
  · rcases List.mem_append.1 ha with ha | ha
    · exact h.numbered a ha
    · rw [List.mem_singleton.1 ha]
      obtain ⟨p, hp, -⟩ := Option.map_eq_some_iff.1 hj
      exact (List.getElem?_eq_some_iff.1 hp).1

/-- The handler takes an envelope from the channel. -/
theorem Inv.handle (h : Inv s) {p : Nat × IpcEnvelope} {incoming : List (Nat × IpcEnvelope)}
    (hincoming : s.incoming = p :: incoming) : Inv { s with incoming, handled := s.handled ++ [p] } := by
  have hall : s.handled ++ [p] ++ incoming = s.handled ++ s.incoming := by
    rw [hincoming, List.append_assoc]
    rfl
  refine ⟨h.links, fun i c hc => ?_, fun q hq => ?_, fun i c hc => ?_, fun a ha => ?_⟩
  · rw [hall]
    exact h.arrived i c hc
  · rw [hall] at hq
    exact h.known q hq
  · rw [h.answered i c hc, System.answersTo, System.answersTo]
    congr 1
    refine List.filter_congr fun a ha => ?_
    rw [List.getElem?_append_left (h.numbered a ha)]
  · rw [List.length_append]
    exact Nat.lt_add_right _ (h.numbered a ha)

theorem Inv.step (h : Inv s) (e : Event) : Inv (act s e) := by
  cases e with
  | connect => exact h.connect
  | send i e =>
    exact h.modify_silent (fun c hc => (h.links i c hc).give_up e) (fun _ => rfl) fun _ => rfl
  | answer j e =>
    show Inv (s.step (.answer j e))
    cases hj : s.handled[j]? with
    | none =>
      simp only [System.step, hj]
      exact h
    | some p =>
      simp only [System.step, hj]
      exact h.answer (by rw [hj]; rfl) e
  | up i t =>
    show Inv { s with
      connections := s.connections.modify i fun c => c.stepUp s.json t, incoming := s.incoming ++ s.arriving i t }
    have hstep (c : Connection) (hc : s.connections[i]? = some c) : (c.stepUp s.json t).Holds s.json :=
      (h.links i c hc).step_up t
    cases hc : s.connections[i]? with
    | none =>
      have hnothing : s.arriving i t = ([] : List IpcEnvelope).map fun e => (i, e) := by
        simp only [System.arriving, hc, List.map_nil]
      rw [hnothing]
      refine h.modify hstep (fun _ _ => given_stepUp_down t) (fun d hd => ?_) fun _ => rfl
      rw [hc] at hd
      cases hd
    | some c =>
      have harriving : s.arriving i t = ((c.stepUp s.json t).up.got.drop c.up.got.length).map fun e => (i, e) := by
        simp only [System.arriving, hc]
      rw [harriving]
      refine h.modify hstep (fun _ _ => given_stepUp_down t) (fun d hd => ?_) fun hnone => ?_
      · obtain rfl : c = d := Option.some.inj (hc.symm.trans hd)
        rw [stepUp_up]
        exact (List.prefix_iff_eq_append.1 (Link.got_step t)).symm
      · rw [hc] at hnone
        cases hnone
  | down i t =>
    exact h.modify_silent (fun c hc => (h.links i c hc).step_down t) (fun _ => Link.given_step t) fun _ => rfl
  | handle =>
    show Inv (s.step .handle)
    cases hincoming : s.incoming with
    | nil =>
      simp only [System.step, hincoming]
      exact h
    | cons p incoming =>
      simp only [System.step, hincoming]
      exact h.handle hincoming

theorem Inv.run (h : Inv s) (es : List Event) : Inv (after s es) :=
  (along_true.invariant (fun _ e hs _ => hs.step e) h).2

theorem json_after (es : List Event) : (after s es).json = s.json := by
  induction es generalizing s with
  | nil => rfl
  | cons e es ih =>
    rw [after_cons, ih]
    show (s.step e).json = s.json
    cases e with
    | answer j e =>
      simp only [System.step]
      split <;> rfl
    | handle =>
      simp only [System.step]
      split <;> rfl
    | _ => rfl

/-! ### Results -/

/-- The envelopes are, in order, what the first of the given ones are read as, none of which is too long. -/
def Received (json : Json) (given got : List IpcEnvelope) : Prop :=
  ∃ done, done <+: given ∧ (∀ e ∈ done, json.packing.Short e) ∧ got = done.filterMap json.packing.carried

/-- What becomes of the envelopes of a connection. -/
structure Delivers (s : System) (i : Nat) (c : Connection) : Prop where
  arrived : Received s.json c.up.given (ofConnection i (s.handled ++ s.incoming))
  answered : Received s.json (s.answersTo i) c.down.got
  arrives : c.up.broken = false → (∀ e ∈ c.up.given, s.json.packing.Short e) →
    ∃ es, ofConnection i (after s es).handled = c.up.given.filterMap s.json.packing.carried

/-- The steps of a connection are those of its link. -/
theorem after_up (hc : s.connections[i]? = some c) (ts : List Link.Step) :
    ∃ c', (after s (ts.map (Event.up i))).connections[i]? = some c' ∧
      c'.up = ts.foldl (Link.step s.json.packing) c.up := by
  induction ts generalizing s c with
  | nil => exact ⟨c, hc, rfl⟩
  | cons t ts ih =>
    have hnext : (act s (Event.up i t)).connections[i]? = some (c.stepUp s.json t) := by
      show (s.connections.modify i fun c => c.stepUp s.json t)[i]? = _
      rw [List.getElem?_modify, hc]
      simp
    obtain ⟨c', hc', hup⟩ := ih hnext
    refine ⟨c', hc', ?_⟩
    rw [hup, stepUp_up]
    rfl

/-- The handler comes to the end of the channel. -/
theorem after_handle (s : System) :
    (after s (s.incoming.map fun _ => Event.handle)).handled = s.handled ++ s.incoming := by
  generalize hn : s.incoming = incoming
  induction incoming generalizing s with
  | nil => exact (List.append_nil _).symm
  | cons p incoming ih =>
    have hnext : act s Event.handle = { s with incoming, handled := s.handled ++ [p] } := by
      show s.step .handle = _
      simp only [System.step, hn]
    rw [List.map_cons, after_cons, hnext, ih _ rfl, List.append_assoc]
    rfl

/-- Whatever order the steps come in, the handler gets the envelopes of each client, and each client the answers to
its own envelopes, in order, without a gap, and each once; and as long as the connection holds, none is left
behind. -/
theorem envelopes_delivered (json : Json) (es : List Event)
    (hsized : ∀ c ∈ (after (System.start json) es).connections,
      (∀ e ∈ c.up.given, json.packing.Sized e) ∧ ∀ e ∈ c.down.given, json.packing.Sized e)
    {i : Nat} {c : Connection} (hc : (after (System.start json) es).connections[i]? = some c) :
    Delivers (after (System.start json) es) i c := by
  have h : Inv (after (System.start json) es) := inv_start.run es
  have hjson : (after (System.start json) es).json = json := json_after es
  generalize after (System.start json) es = s at h hc hsized hjson
  subst hjson
  obtain ⟨hup, hdown⟩ := hsized c (List.mem_of_getElem? hc)
  have hlinks := h.links i c hc
  refine ⟨?_, ?_, fun hopen hshort => ?_⟩
  · rw [h.arrived i c hc]
    exact (hlinks.up hup).received
  · rw [← h.answered i c hc]
    exact (hlinks.down hdown).received
  · obtain ⟨ts, hts⟩ := Link.exists_delivery (hlinks.up hup) hopen hup hshort
    obtain ⟨c', hc', hsteps⟩ := after_up hc ts
    have h' := h.run (ts.map (Event.up i))
    refine ⟨ts.map (Event.up i) ++ (after s (ts.map (Event.up i))).incoming.map fun _ => Event.handle, ?_⟩
    rw [after_append, after_handle, h'.arrived i c' hc', hsteps, hts]

/-! A world server registers. -/

def sampleText : List UInt8 :=
  "\x7b\"msg_type\":\"handshake\",\"payload\":\x7b\"server_id\":1,\"server_name\":\"Jiva\"\x7d\x7d".toList.map
    fun c =>
    UInt8.ofNat c.toNat

def sampleEnvelope : IpcEnvelope :=
  ⟨"handshake", .object [("server_id", .number (.posInt 1)), ("server_name", .string "Jiva")]⟩

def sampleJson : Json where
  toVec := fun e => if e.msgType = "handshake" then some sampleText else none
  fromSlice := fun buf => if buf = sampleText then some sampleEnvelope else none

/-- Two servers register.  The envelope of the first is handled and answered; of the second one's, the last byte has
not been read. -/
def sampleEvents : List Event :=
  [.connect, .connect, .send 0 sampleEnvelope, .send 1 sampleEnvelope, .up 0 .pack, .up 1 .pack] ++
    .replicate 75 (.up 0 .write) ++ .replicate 75 (.up 1 .write) ++ .replicate 75 (.up 0 .read) ++
    .replicate 74 (.up 1 .read) ++ [.handle, .answer 0 sampleEnvelope, .down 0 .pack] ++
    .replicate 75 (.down 0 .write) ++ .replicate 75 (.down 0 .read)

example : (after (System.start sampleJson) (sampleEvents ++ [.up 1 .read])).incoming.map Prod.fst = [1] := by
  decide +kernel

theorem sampleJson_sized (e : IpcEnvelope) : sampleJson.packing.Sized e := by
  intro data hdata
  simp only [Json.packing, sampleJson] at hdata
  split_ifs at hdata
  · obtain rfl : sampleText = data := by simpa using hdata
    decide +kernel
  · cases hdata

theorem envelopes_delivered_sample : ∃ c c', (after (System.start sampleJson) sampleEvents).connections = [c, c'] ∧
    (after (System.start sampleJson) sampleEvents).handled.map Prod.fst = [0] ∧
      c.down.got.map IpcEnvelope.msgType = ["handshake"] ∧ c'.up.given.map IpcEnvelope.msgType = ["handshake"] ∧
        Delivers (after (System.start sampleJson) sampleEvents) 0 c ∧
          Delivers (after (System.start sampleJson) sampleEvents) 1 c' := by
  have hlinks : (after (System.start sampleJson) sampleEvents).connections.map (fun c =>
      (c.down.got.map IpcEnvelope.msgType, c.up.given.map IpcEnvelope.msgType)) =
        [(["handshake"], ["handshake"]), ([], ["handshake"])] := by decide +kernel
  obtain ⟨c, cs, hconnections, hc, hcs⟩ := List.map_eq_cons_iff.1 hlinks
  obtain ⟨c', rfl, hc'⟩ := List.map_eq_singleton_iff.1 hcs
  have hdelivers : ∀ {i : Nat} {d : Connection},
    (after (System.start sampleJson) sampleEvents).connections[i]? = some d →
      Delivers (after (System.start sampleJson) sampleEvents) i d :=
    fun hd => envelopes_delivered sampleJson sampleEvents
      (fun _ _ => ⟨fun e _ => sampleJson_sized e, fun e _ => sampleJson_sized e⟩) hd
  refine ⟨c, c', hconnections, by decide +kernel, (Prod.mk.inj hc).1, (Prod.mk.inj hc').2, hdelivers ?_, hdelivers ?_⟩
  · rw [hconnections]
    rfl
  · rw [hconnections]
    rfl

end Otomai.Ipc
