import FanucDriver.Motion.Relay

/-!
# The packets of a stream

How `ipkt_checkfd` cuts what a client sends into packets, and which of them a run has received.

* `nextPacket`, `packets` — the packets of a stream: sixty bytes each, eight more for a
  trajectory point that says it has them.
* `ipktCheckfd_cases` — what a call of `ipkt_checkfd` can do.
* `Handled`s as history: `State.current?`, `State.handlings`, `State.received`.
* `OnStream`, `step_onStream` — on one connection the packets handled are the first packets of its
  stream.
-/

set_option autoImplicit false

namespace FanucDriver

open Wire

/-! ## Cutting a stream -/

/-- The packet `ipkt_dsrlse` takes off a stream when no `READ` fails, and what it leaves. -/
def nextPacket (o : ByteOrder) (p : IndPkt) (bs : Bytes) : Option (IndPkt × Bytes) :=
  (ipktDsrlse o .ok p ⟨bs, []⟩).map fun r => (r.2.1, r.2.2.all)

/-- The first `n` packets of a stream, as far as it has that many. -/
def packets (o : ByteOrder) : Nat → IndPkt → Bytes → List IndPkt
  | 0, _, _ => []
  | n + 1, p, bs =>
    match nextPacket o p bs with
    | none => []
    | some (q, rest) => q :: packets o n q rest

theorem packets_succ {o : ByteOrder} {p q : IndPkt} {bs rest : Bytes}
    (h : nextPacket o p bs = some (q, rest)) (n : Nat) :
    packets o (n + 1) p bs = q :: packets o n q rest := by
  rw [packets, h]

/-- Whether the packet has the two fields of a trajectory point. -/
def IndPkt.hasTail (p : IndPkt) : Prop :=
  p.msgType = RI_MT_JTRAJP ∧ (RI_SZ_HDR + RI_SZB_TRAJP : Int) ≤ p.length.toInt

instance (p : IndPkt) : Decidable p.hasTail := inferInstanceAs (Decidable (_ ∧ _))

/-- The packet and the number of bytes `ipkt_dsrlse` takes off a stream. -/
theorem ipktDsrlse_stat_zero {o : ByteOrder} {r : ReadOutcome} {p q : IndPkt} {c c' : Channel}
    (h : ipktDsrlse o r p c = some (0, q, c')) :
    60 ≤ c.all.length ∧
      ((¬ (p.assign (decodeWords o 15 c.all)).hasTail ∧ q = p.assign (decodeWords o 15 c.all) ∧
          c' = c.consume 60) ∨
        ((p.assign (decodeWords o 15 c.all)).hasTail ∧ 68 ≤ c.all.length ∧
          q = { p.assign (decodeWords o 15 c.all) with
            velocity := decode o (c.all.drop 60), duration := decode o (c.all.drop 64) } ∧
          c' = c.consume 68)) := by
  unfold ipktDsrlse at h
  split at h
  · cases h
  · rename_i ws stat c₁ hread
    dsimp only at h
    split at h
    · simp only [Option.some.injEq, Prod.mk.injEq] at h
      omega
    · rename_i hstat
      obtain ⟨hle, rfl, rfl⟩ := readFields_stat_zero hread (not_not.mp hstat)
      refine ⟨hle, ?_⟩
      split at h
      · rename_i htail
        split at h
        · cases h
        · rename_i ws stat c₂ hread
          simp only [Option.some.injEq, Prod.mk.injEq] at h
          obtain ⟨hneg, rfl, rfl⟩ := h
          obtain ⟨hle', rfl, rfl⟩ := readFields_stat_zero hread (by omega)
          rw [Channel.all_consume, List.length_drop] at hle'
          refine .inr ⟨htail, by omega, ?_, ?_⟩
          · simp [decodeWords]
          · rw [Channel.consume_consume]
      · rename_i htail
        simp only [Option.some.injEq, Prod.mk.injEq] at h
        obtain ⟨-, rfl, rfl⟩ := h
        exact .inl ⟨htail, rfl, rfl⟩

/-- When no `READ` fails the packet is read as soon as the client has sent all of it. -/
theorem ipktDsrlse_ok (o : ByteOrder) (p : IndPkt) (c : Channel) :
    ipktDsrlse o .ok p c =
      if 60 ≤ c.all.length then
        if (p.assign (decodeWords o 15 c.all)).hasTail then
          if 68 ≤ c.all.length then
            some (0, { p.assign (decodeWords o 15 c.all) with
              velocity := decode o (c.all.drop 60), duration := decode o (c.all.drop 64) },
              c.consume 68)
          else none
        else some (0, p.assign (decodeWords o 15 c.all), c.consume 60)
      else none := by
  have hok : (⟨ReadOutcome.ok.stat, ReadOutcome.ok.got - 15⟩ : ReadOutcome) = .ok := rfl
  by_cases hle : 60 ≤ c.all.length
  · have hlen : (c.consume (4 * 15)).all.length = c.all.length - 60 := by
      rw [Channel.all_consume, List.length_drop]
    simp only [ipktDsrlse, readFields_of_le (n := 15) hle, hok, if_pos hle, not_not.mpr]
    generalize p.assign (decodeWords o 15 c.all) = q
    by_cases htail : q.hasTail
    · rw [if_pos htail, if_pos (show _ ∧ _ from htail)]
      by_cases hle' : 68 ≤ c.all.length
      · rw [readFields_of_le (n := 2) (by omega), if_pos hle']
        simp [decodeWords, Channel.consume_consume]
      · rw [readFields_of_lt (n := 2) (by omega), if_neg hle']
        rfl
    · rw [if_neg htail, if_neg (show ¬ (_ ∧ _) from htail)]
      rfl
  · rw [if_neg hle, ipktDsrlse, readFields_of_lt (by omega)]

theorem nextPacket_iff {o : ByteOrder} {p q : IndPkt} {c : Channel} {rest : Bytes} :
    nextPacket o p c.all = some (q, rest) ↔
      ∃ c', ipktDsrlse o .ok p c = some (0, q, c') ∧ c'.all = rest := by
  have hall : (⟨c.all, []⟩ : Channel).all = c.all := List.append_nil _
  rw [nextPacket, ipktDsrlse_ok, ipktDsrlse_ok, hall]
  split
  · split
    · split
      · simp [hall]
      · simp
    · simp [hall]
  · simp

/-- A packet the relay has read is the next one of the stream. -/
theorem nextPacket_of_dsrlse {o : ByteOrder} {r : ReadOutcome} {p q : IndPkt} {c c' : Channel}
    (h : ipktDsrlse o r p c = some (0, q, c')) : nextPacket o p c.all = some (q, c'.all) := by
  refine nextPacket_iff.mpr ⟨c', ?_, rfl⟩
  obtain ⟨hle, ⟨htail, rfl, rfl⟩ | ⟨htail, hle', rfl, rfl⟩⟩ := ipktDsrlse_stat_zero h
  · rw [ipktDsrlse_ok, if_pos hle, if_neg htail]
  · rw [ipktDsrlse_ok, if_pos hle, if_pos htail, if_pos hle']

/-- Fifteen words overwrite everything but the two fields of a trajectory point. -/
theorem IndPkt.assign_congr {p q : IndPkt} (hv : p.velocity = q.velocity)
    (hd : p.duration = q.duration) {ws : List Word} (hlen : ws.length = 15) :
    p.assign ws = q.assign ws := by
  have hget : ∀ {i : Nat} (x y : Word), i < 15 → ws[i]?.getD x = ws[i]?.getD y := by
    intro i x y hi
    rw [List.getElem?_eq_getElem (hlen ▸ hi)]
    rfl
  simp only [assign, hv, hd, mk.injEq, and_true]
  refine ⟨hget _ _ (by omega), hget _ _ (by omega), hget _ _ (by omega), hget _ _ (by omega),
    hget _ _ (by omega), ?_⟩
  congr 1
  funext i
  exact hget _ _ (by omega)

theorem nextPacket_congr {o : ByteOrder} {p q : IndPkt} (hv : p.velocity = q.velocity)
    (hd : p.duration = q.duration) (bs : Bytes) : nextPacket o p bs = nextPacket o q bs := by
  have hassign : p.assign (decodeWords o 15 bs) = q.assign (decodeWords o 15 bs) :=
    IndPkt.assign_congr hv hd (by simp)
  have hall : (⟨bs, []⟩ : Channel).all = bs := List.append_nil _
  rw [nextPacket, nextPacket, ipktDsrlse_ok, ipktDsrlse_ok, hall, hassign]

theorem packets_congr {o : ByteOrder} {p q : IndPkt} (hv : p.velocity = q.velocity)
    (hd : p.duration = q.duration) (bs : Bytes) (n : Nat) : packets o n p bs = packets o n q bs := by
  cases n with
  | zero => rfl
  | succ n => rw [packets, packets, nextPacket_congr hv hd]

/-- **What `ipkt_checkfd` can do**: fail, find too few bytes, or read a packet. -/
theorem ipktCheckfd_cases {o : ByteOrder} {ahead : Nat} {r : ReadOutcome} {p q : IndPkt}
    {c c' : Channel} {stat : Int} (h : ipktCheckfd o ahead r p c = some (stat, q, c')) :
    stat < 0 ∨ (stat = 0 ∧ q = p ∧ c' = c) ∨
      (stat = 1 ∧ nextPacket o p c.all = some (q, c'.all)) := by
  unfold ipktCheckfd at h
  split at h
  · cases h
    exact .inl (by omega)
  · split at h
    · split at h
      · cases h
      · rename_i dstat pkt chan hdsrlse
        split at h
        · simp only [Option.some.injEq, Prod.mk.injEq] at h
          exact .inl (by omega)
        · rename_i hstat
          cases h
          rw [not_not.mp hstat] at hdsrlse
          exact .inr (.inr ⟨rfl, nextPacket_of_dsrlse hdsrlse⟩)
    · cases h
      exact .inr (.inl ⟨rfl, rfl, rfl⟩)

namespace TrajRelay

open Handshake

variable {P : Type}

/-! ## The packets received -/

/-- The record of the packet being handled. -/
def Pc.current? : Pc → Option Handled
  | .poll | .discon => none
  | .cancel h | .ackStop h | .ackPoint h | .execMove h | .nack h => some h

/-- The records of the packets received so far. -/
def State.handlings (s : State P) : List Handled := s.done ++ s.pc.current?.toList

def State.received (s : State P) : List IndPkt := s.handlings.map Handled.pkt

theorem handlings_of_current {s : State P} {h : Handled} (hc : s.pc.current? = some h) :
    s.handlings = s.done ++ [h] := by
  rw [State.handlings, hc]
  rfl

theorem handlings_of_none {s : State P} (hc : s.pc.current? = none) : s.handlings = s.done := by
  rw [State.handlings, hc]
  exact List.append_nil _

theorem finish_handlings (s : State P) (h : Handled) (discon : Bool) :
    (s.finish h discon).handlings = s.done ++ [{ h with discon := discon }] := by
  refine handlings_of_none ?_
  cases discon <;> rfl

theorem dispatch_handlings (s : State P) :
    s.dispatch.handlings = s.done ++ [⟨s.pktIn, [], none, false, false, false⟩] := by
  unfold State.dispatch
  dsimp only
  split
  · split
    · rfl
    · exact finish_handlings s _ false
  · rfl

theorem executed_handlings (s : State P) (hand : Handshake.State (Received P)) (h : Handled) :
    ∃ result discon, (s.executed hand h).handlings =
      s.done ++ [{ h with result := result, discon := discon }] := by
  unfold State.executed
  split
  · dsimp only
    split
    · exact ⟨some (lastResult hand), h.discon, rfl⟩
    · exact ⟨some (lastResult hand), false, finish_handlings { s with hand := hand } _ false⟩
  · exact ⟨h.result, h.discon, rfl⟩

@[simp] theorem Handled.after_pkt (h : Handled) (e : ExecPc (Received P)) :
    (h.after e).pkt = h.pkt := by
  cases e <;> rfl

theorem received_of_current {s : State P} {h : Handled} (hc : s.pc.current? = some h) :
    s.received = s.done.map Handled.pkt ++ [h.pkt] := by
  rw [State.received, handlings_of_current hc, List.map_append]
  rfl

/-- The end of an iteration: what has been received stays. -/
theorem finish_received {s : State P} {h : Handled} (hc : s.pc.current? = some h) (t : State P)
    (h' : Handled) (discon : Bool) (hdone : t.done = s.done) (hpkt : h'.pkt = h.pkt) :
    (t.finish h' discon).received = s.received := by
  rw [received_of_current hc, State.received, finish_handlings, hdone, ← hpkt, List.map_append]
  rfl

theorem dispatch_received {s : State P} (hpc : s.pc = .poll) :
    s.dispatch.received = s.received ++ [s.pktIn] := by
  have hnone : s.handlings = s.done := handlings_of_none (by rw [hpc]; rfl)
  rw [State.received, State.received, dispatch_handlings, hnone, List.map_append]
  rfl

theorem executed_received {s : State P} {h : Handled} (hc : s.pc.current? = some h)
    (hand : Handshake.State (Received P)) (e : ExecPc (Received P)) :
    (s.executed hand (h.after e)).received = s.received := by
  obtain ⟨result, discon, hexec⟩ := executed_handlings s hand (h.after e)
  rw [State.received, hexec, received_of_current hc, List.map_append, ← h.after_pkt e]
  rfl

/-- The packets received are the first ones of the stream, and the rest of it is still to be
read. -/
structure OnStream (o : ByteOrder) (stream : Bytes) (s : State P) : Prop where
  received : packets o s.received.length ipktReset stream = s.received
  continues : s.pc ≠ .discon → ∀ k, packets o (s.received.length + k) ipktReset stream =
    s.received ++ packets o k s.pktIn s.chan.all

theorem onStream_start (o : ByteOrder) (hand : Handshake.State (Received P)) (stream : Bytes) :
    OnStream o stream (start hand stream) where
  received := rfl
  continues _ k := by
    rw [show (start hand stream).received = [] from rfl, List.length_nil, Nat.zero_add]
    rfl

/-- A step that takes no packet. -/
theorem OnStream.keep {o : ByteOrder} {stream : Bytes} {s t : State P} (h : OnStream o stream s)
    (hreceived : t.received = s.received)
    (hrest : t.pc ≠ .discon → s.pc ≠ .discon ∧ t.pktIn.velocity = s.pktIn.velocity ∧
      t.pktIn.duration = s.pktIn.duration ∧ t.chan.all = s.chan.all) : OnStream o stream t where
  received := hreceived ▸ h.received
  continues hpc k := by
    obtain ⟨hspc, hv, hd, hall⟩ := hrest hpc
    rw [hreceived, hall, packets_congr hv hd]
    exact h.continues hspc k

/-- The connection is the first one. -/
def OneConnection (_ : State P) : Label P → Prop
  | .accept _ => False
  | _ => True

instance decidableOneConnection (s : State P) : ∀ l, Decidable (OneConnection s l)
  | .accept _ => isFalse id
  | .arrive _ | .poll _ _ | .cancel | .write _ | .exec _ | .msm | .motionEnd => isTrue trivial

theorem step_onStream {env : Env P} {stream : Bytes} {s t : State P} {l : Label P}
    (h : OnStream env.byteOrder stream s) (hone : OneConnection s l)
    (hs : step env s l = some t) : OnStream env.byteOrder stream t := by
  have hcur : ∀ {pc : Pc} {hd : Handled}, s.pc = pc → pc.current? = some hd →
      s.pc.current? = some hd := by
    intro pc hd hpc hc
    rw [hpc, hc]
  have hne : ∀ {hd : Handled}, s.pc.current? = some hd → s.pc ≠ .discon := by
    intro hd hc hpc
    rw [hpc] at hc
    cases hc
  cases step_trans hs with
  | accept => exact hone.elim
  | arrive n => exact h.keep rfl fun hpc => ⟨hpc, rfl, rfl, Channel.all_arrive n s.chan⟩
  | failed ahead read stat pkt chan pc =>
    refine h.keep ?_ fun hpc => absurd rfl hpc
    rw [State.received, State.received, State.handlings, State.handlings, pc]
    rfl
  | waits ahead read pkt chan pc check =>
    obtain hneg | ⟨-, rfl, rfl⟩ | ⟨hone, -⟩ := ipktCheckfd_cases check
    · exact absurd hneg (by decide)
    · exact h.keep rfl fun hpc => ⟨hpc, rfl, rfl, rfl⟩
    · exact absurd hone (by decide)
  | received ahead read stat pkt chan pc check pos =>
    obtain hneg | ⟨rfl, -⟩ | ⟨-, hnext⟩ := ipktCheckfd_cases check
    · omega
    · omega
    · have hspc : s.pc ≠ .discon := by
        rw [pc]
        exact Pc.noConfusion
      have hrec : ({ s with pktIn := pkt, chan := chan } : State P).dispatch.received =
          s.received ++ [pkt] := dispatch_received pc
      have hk : ∀ k, packets env.byteOrder ((s.received ++ [pkt]).length + k) ipktReset stream =
          (s.received ++ [pkt]) ++ packets env.byteOrder k pkt chan.all := by
        intro k
        have hlen : (s.received ++ [pkt]).length + k = s.received.length + (k + 1) := by
          rw [List.length_append, List.length_singleton]
          omega
        rw [hlen, h.continues hspc, packets_succ hnext, List.append_assoc, List.singleton_append]
      constructor
      · have h0 := hk 0
        rw [Nat.add_zero, packets, List.append_nil] at h0
        rw [hrec, h0]
      · intro _ k
        rw [hrec, hk, dispatch_eq]
  | cancel hd pc =>
    refine h.keep ?_ fun _ => ⟨hne (hcur pc rfl), rfl, rfl, rfl⟩
    rw [received_of_current (hcur pc rfl)]
    exact received_of_current rfl
  | stopAcked hd os w pc call ret =>
    exact h.keep (finish_received (hcur pc rfl) (s.wrote w).stopAcked _ _ rfl rfl)
      fun _ => ⟨hne (hcur pc rfl), rfl, rfl, rfl⟩
  | ackFailed hd os w pc call ret =>
    have hc : s.pc.current? = some hd := by
      rcases pc with pc | pc
      · exact hcur pc rfl
      · exact hcur pc rfl
    exact h.keep (finish_received hc (s.wrote w) _ _ rfl rfl) fun _ => ⟨hne hc, rfl, rfl, rfl⟩
  | called hd os w hand pc call ret next =>
    refine h.keep ?_ fun _ => ⟨hne (hcur pc rfl), rfl, rfl, rfl⟩
    rw [received_of_current (hcur pc rfl)]
    exact received_of_current (h := hd.reply RI_RT_SUCC w) rfl
  | nacked hd os w pc call =>
    exact h.keep (finish_received (hcur pc rfl) (s.wrote w) _ _ rfl rfl)
      fun _ => ⟨hne (hcur pc rfl), rfl, rfl, rfl⟩
  | exec hd out hand pc next =>
    refine h.keep (executed_received (hcur pc rfl) hand _) fun _ => ⟨hne (hcur pc rfl), ?_⟩
    rw [executed_eq]
    exact ⟨rfl, rfl, rfl⟩
  | msm hand next =>
    rw [moved_eq]
    exact h.keep rfl fun hpc => ⟨hpc, rfl, rfl, rfl⟩
  | motionEnd => exact h.keep rfl fun hpc => ⟨hpc, rfl, rfl, rfl⟩

/-- **On one connection the packets received are the first packets of its stream.** -/
theorem run_onStream {env : Env P} {hand : Handshake.State (Received P)} {stream : Bytes}
    {ls : List (Label P)} {s : State P}
    (hone : Lts.Along (step env) OneConnection (start hand stream) ls)
    (hr : Lts.run (step env) (start hand stream) ls = some s) :
    OnStream env.byteOrder stream s :=
  Lts.run_inv_along (fun _ _ _ h hok hs => step_onStream h hok hs)
    (onStream_start env.byteOrder hand stream) hone hr

end TrajRelay

end FanucDriver
