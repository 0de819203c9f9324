import Mathlib.Logic.Function.Basic
import Switchboard.Channel.Pipe
import Switchboard.Proofs.Handshake.Conduct
import Switchboard.Proofs.Runs

/-!
# Two sides and the pipes between them

The two sides of a handshake run against each other over two pipes of any capacity, in any order of
moves: a side offers some of the bytes it has to say, reads at most so many bytes, is given
something to send once it has agreed, or lets go of the connection once it has returned. Nothing
else breaks the connection. `Effect` says what one move does, and `Sound` is what every reachable
state keeps: what has been taken from a side is a beginning of what it says, the other side has
heard a beginning of that, and the rest of it is in the pipe.
-/

namespace Switchboard

/-- The two sides of a connection, and for each the pipe that it writes to. -/
structure Duplex where
  partner : Side → Partner
  pipe : Side → Pipe

inductive Duplex.Move where
  /-- Offer at most so many bytes to the pipe. -/
  | send (s : Side) (most : Nat)
  /-- Read at most so many bytes. -/
  | hear (s : Side) (room : Nat)
  /-- Be given something to send over the transport. -/
  | say (s : Side) (data : ByteArray)
  /-- Let go of the connection. -/
  | letGo (s : Side)

namespace Duplex

def start (up down : Nat) : Duplex where
  partner _ := {}
  pipe
    | .seeker => { capacity := up }
    | .granter => { capacity := down }

def setPartner (d : Duplex) (s : Side) (p : Partner) : Duplex :=
  { d with partner := Function.update d.partner s p }

def setPipe (d : Duplex) (s : Side) (pipe : Pipe) : Duplex :=
  { d with pipe := Function.update d.pipe s pipe }

def close (d : Duplex) : Duplex :=
  { d with pipe := fun s => (d.pipe s).close }

section Fields

variable (d : Duplex) (s : Side) (p : Partner) (pipe : Pipe)

@[simp] theorem setPartner_self : (d.setPartner s p).partner s = p :=
  Function.update_self ..

@[simp] theorem setPartner_other : (d.setPartner s p).partner s.other = d.partner s.other :=
  Function.update_of_ne s.other_ne ..

@[simp] theorem setPartner_pipe : (d.setPartner s p).pipe = d.pipe := rfl

@[simp] theorem setPipe_self : (d.setPipe s pipe).pipe s = pipe :=
  Function.update_self ..

@[simp] theorem setPipe_other : (d.setPipe s pipe).pipe s.other = d.pipe s.other :=
  Function.update_of_ne s.other_ne ..

@[simp] theorem setPipe_of_other : (d.setPipe s.other pipe).pipe s = d.pipe s :=
  Function.update_of_ne s.other_ne.symm ..

@[simp] theorem setPipe_partner : (d.setPipe s pipe).partner = d.partner := rfl

@[simp] theorem close_partner : d.close.partner = d.partner := rfl

@[simp] theorem close_pipe : d.close.pipe s = (d.pipe s).close := rfl

end Fields

/-- Whether a move is one that only the user of a transport makes. -/
def Move.isSay : Move → Bool
  | say .. => true
  | _ => false

end Duplex

namespace Upgrade

variable (u : Upgrade)

/-- All that a side has to say so far, in the handshake and after it. -/
def output (s : Side) (p : Partner) : ByteArray :=
  u.written s p ++ p.said

/-- What a move makes of the connection, if it is possible. -/
def step (d : Duplex) : Duplex.Move → Option Duplex
  | .send s most =>
    let p := d.partner s
    if p.gone || p.cut || (u.output s p).size ≤ p.put || most = 0 then none
    else
      match (d.pipe s).write ((u.output s p).extract 0 (p.put + most)) p.put with
      | (.now n, pipe) => some ((d.setPartner s { p with put := p.put + n }).setPipe s pipe)
      | (.failed _, _) => some (d.setPartner s { p with cut := true })
      | (.later, _) => none
  | .hear s room =>
    let p := d.partner s
    if p.gone || p.ended || u.standing s p = .refused || p.put < (u.written s p).size || room = 0
    then none
    else
      match (d.pipe s.other).read room with
      | (.now data, pipe) =>
        if data.size = 0 then some (d.setPartner s { p with ended := true })
        else some ((d.setPartner s { p with heard := p.heard ++ [data] }).setPipe s.other pipe)
      | (.failed _, _) => none
      | (.later, _) => none
  | .say s data =>
    let p := d.partner s
    if p.gone || u.standing s p ≠ .agreed then none
    else some (d.setPartner s { p with said := p.said ++ data })
  | .letGo s =>
    let p := d.partner s
    if p.gone || u.standing s p = .pending then none
    else some (d.setPartner s { p with gone := true }).close

/-- Where nothing moves by itself: no side can send or read, and none that has refused still holds
the connection. -/
def AtRest (d : Duplex) : Prop :=
  (∀ s most, u.step d (.send s most) = none) ∧ (∀ s room, u.step d (.hear s room) = none) ∧
    ∀ s, u.standing s (d.partner s) = .refused → u.step d (.letGo s) = none

inductive Effect (d : Duplex) : Duplex.Move → Duplex → Prop where
  /-- The pipe takes some bytes. -/
  | sent (s : Side) (most n : Nat) (hgone : (d.partner s).gone = false)
      (hcut : (d.partner s).cut = false) (hopen : (d.pipe s).closed = false) (hpos : 0 < n)
      (hn : (d.partner s).put + n ≤ (u.output s (d.partner s)).size) :
      Effect d (.send s most)
        ((d.setPartner s { d.partner s with put := (d.partner s).put + n }).setPipe s
          { d.pipe s with data := (d.pipe s).data ++
              (u.output s (d.partner s)).extract (d.partner s).put ((d.partner s).put + n) })
  /-- The pipe is closed. -/
  | cut (s : Side) (most : Nat) (hgone : (d.partner s).gone = false)
      (hcut : (d.partner s).cut = false) (hclosed : (d.pipe s).closed = true) :
      Effect d (.send s most) (d.setPartner s { d.partner s with cut := true })
  /-- The pipe gives some bytes. -/
  | heard (s : Side) (room : Nat) (hgone : (d.partner s).gone = false)
      (hended : (d.partner s).ended = false) (hpos : 0 < room)
      (hsize : (d.pipe s.other).data.size ≠ 0) :
      Effect d (.hear s room)
        ((d.setPartner s { d.partner s with
          heard := (d.partner s).heard ++ [(d.pipe s.other).data.extract 0 room] }).setPipe s.other
          { d.pipe s.other with
            data := (d.pipe s.other).data.extract room (d.pipe s.other).data.size })
  /-- The pipe is at its end. -/
  | ended (s : Side) (room : Nat) (hgone : (d.partner s).gone = false)
      (hended : (d.partner s).ended = false) (hclosed : (d.pipe s.other).closed = true)
      (hsize : (d.pipe s.other).data.size = 0) :
      Effect d (.hear s room) (d.setPartner s { d.partner s with ended := true })
  /-- A side that has agreed sends something over its transport. -/
  | said (s : Side) (data : ByteArray) (hagreed : u.standing s (d.partner s) = .agreed) :
      Effect d (.say s data)
        (d.setPartner s { d.partner s with said := (d.partner s).said ++ data })
  /-- A side that has returned lets go of the connection. -/
  | letGo (s : Side) (hgone : (d.partner s).gone = false)
      (hreturned : u.standing s (d.partner s) ≠ .pending) :
      Effect d (.letGo s) (d.setPartner s { d.partner s with gone := true }).close

theorem effect_of_step {d d' : Duplex} {move : Duplex.Move} (h : u.step d move = some d') :
    u.Effect d move d' := by
  cases move with
  | send s most =>
    simp only [step] at h
    split at h
    · cases h
    · rename_i hguard
      simp only [Bool.or_eq_true, decide_eq_true_eq, not_or, Bool.not_eq_true] at hguard
      obtain ⟨⟨⟨hgone, hcut⟩, hput⟩, hmost⟩ := hguard
      unfold Pipe.write at h
      by_cases hclosed : (d.pipe s).closed = true
      · rw [if_pos hclosed] at h
        cases h
        exact .cut s most hgone hcut hclosed
      · rw [if_neg hclosed] at h
        simp only [ByteArray.size_extract] at h
        split at h
        · rename_i hwrite
          split at hwrite
          · cases hwrite
          · rename_i hn
            cases hwrite
            cases h
            rw [Bytes.extract_extract_zero (by omega)]
            exact .sent s most _ hgone hcut (by simpa using hclosed) (by omega) (by omega)
        · rename_i hwrite
          split at hwrite <;> cases hwrite
        · cases h
  | hear s room =>
    simp only [step] at h
    split at h
    · cases h
    · rename_i hguard
      simp only [Bool.or_eq_true, decide_eq_true_eq, not_or, Bool.not_eq_true] at hguard
      obtain ⟨⟨⟨⟨hgone, hended⟩, -⟩, -⟩, hroom⟩ := hguard
      unfold Pipe.read at h
      by_cases hsize : (d.pipe s.other).data.size = 0
      · rw [if_pos hsize] at h
        by_cases hclosed : (d.pipe s.other).closed = true
        · rw [if_pos (by simp [hclosed])] at h
          cases h
          exact .ended s room hgone hended hclosed hsize
        · rw [if_neg (by simp [hclosed, hroom])] at h
          cases h
      · rw [if_neg hsize] at h
        simp only at h
        rw [if_neg (by rw [ByteArray.size_extract]; omega)] at h
        cases h
        exact .heard s room hgone hended (by omega) hsize
  | say s data =>
    simp only [step] at h
    split at h
    · cases h
    · rename_i hguard
      simp only [Bool.or_eq_true, decide_eq_true_eq, not_or, Decidable.not_not] at hguard
      cases h
      exact .said s data hguard.2
  | letGo s =>
    simp only [step] at h
    split at h
    · cases h
    · rename_i hguard
      simp only [Bool.or_eq_true, decide_eq_true_eq, not_or, Bool.not_eq_true] at hguard
      cases h
      exact .letGo s hguard.1 hguard.2

/-! ## What every reachable state keeps -/

/-- What every reachable state keeps of a side `s` that is in state `p`, with the other side in
state `q`, the pipe `out` that it writes to and the pipe `inn` that it reads from. -/
structure SoundAt (s : Side) (p q : Partner) (out inn : Pipe) : Prop where
  /-- No more is taken from a side than it has to say. -/
  bounded : p.put ≤ (u.text s ++ p.said).size
  /-- What has been taken is what the other side has heard, and then what is in the pipe. -/
  flow : joined q.heard ++ out.data = (u.text s ++ p.said).extract 0 p.put
  /-- A side sends something over its transport only after the handshake. -/
  spoken : p.said.size ≠ 0 →
    u.Granted ∧ (u.text s).size ≤ p.put ∧ (u.text s.other).size ≤ (joined p.heard).size
  /-- The server says nothing before it has heard the head. -/
  answered : s = .granter → p.put ≠ 0 → u.asks.size ≤ (joined p.heard).size
  closed_iff : out.closed = true ↔ p.gone = true ∨ q.gone = true
  ended : p.ended = true → q.gone = true ∧ inn.data.size = 0
  cut : p.cut = true → q.gone = true
  /-- Only a side that has returned lets go, and none that has refused if the upgrade is granted. -/
  gone : p.gone = true →
    u.standing s p ≠ .pending ∧ (u.Granted → u.standing s p = .agreed)
  capacity : 0 < out.capacity

def Sound (d : Duplex) : Prop :=
  ∀ s, u.SoundAt s (d.partner s) (d.partner s.other) (d.pipe s) (d.pipe s.other)

theorem sound_start {up down : Nat} (hup : 0 < up) (hdown : 0 < down) :
    u.Sound (Duplex.start up down) := by
  intro s
  have hnone : (u.text s ++ ByteArray.empty).extract 0 0 = ByteArray.empty := by
    rw [ByteArray.extract_eq_empty_iff]; omega
  constructor
  case bounded => exact Nat.zero_le _
  case flow =>
    refine Eq.trans ?_ hnone.symm
    cases s <;> exact ByteArray.empty_append
  case spoken => exact fun h => absurd rfl h
  case answered => exact fun _ h => absurd rfl h
  case closed_iff => cases s <;> simp [Duplex.start]
  case ended => exact fun h => by cases h
  case cut => exact fun h => by cases h
  case gone => exact fun h => by cases h
  case capacity =>
    cases s
    · exact hup
    · exact hdown

variable {u} {d : Duplex}

theorem sound_of (s : Side)
    (hs : u.SoundAt s (d.partner s) (d.partner s.other) (d.pipe s) (d.pipe s.other))
    (hother : u.SoundAt s.other (d.partner s.other) (d.partner s) (d.pipe s.other) (d.pipe s)) :
    u.Sound d := by
  intro t
  rcases s.eq_or_other t with rfl | rfl
  · exact hs
  · rwa [Side.other_other]

theorem Sound.other (h : u.Sound d) (s : Side) :
    u.SoundAt s.other (d.partner s.other) (d.partner s) (d.pipe s.other) (d.pipe s) := by
  have ho := h s.other
  rwa [Side.other_other] at ho

theorem Sound.heard_le (h : u.Sound d) (s : Side) :
    (joined (d.partner s.other).heard).size + (d.pipe s).data.size = (d.partner s).put := by
  have hsize := congrArg ByteArray.size (h s).flow
  have hbounded := (h s).bounded
  rw [ByteArray.size_append, ByteArray.size_extract] at hsize
  omega

theorem Sound.hears (h : u.Sound d) (s : Side) : u.Hears (d.partner s) s := by
  have ho := h.other s
  have hsize := h.heard_le s.other
  rw [Side.other_other] at hsize
  have hbounded := ho.bounded
  refine ⟨(d.partner s.other).said, (joined (d.partner s).heard).size, by omega, ?_,
    fun hsaid => (ho.spoken hsaid).1⟩
  have hbeginning := Bytes.eq_beginning_of_append ho.flow
  rwa [Bytes.extract_extract_zero (by omega)] at hbeginning

theorem Sound.agreed (h : u.Sound d) {s : Side} (ha : u.standing s (d.partner s) = .agreed) :
    u.Granted ∧ (u.text s).size ≤ (d.partner s).put ∧
      (u.text s.other).size ≤ (joined (d.partner s).heard).size := by
  cases s with
  | seeker =>
    have hs := (standing_seeker (h.hears .seeker)).1
    rw [ha] at hs
    split at hs
    · cases hs
    · split at hs
      · split at hs <;> cases hs
      · rename_i hput
        split at hs
        · split at hs <;> cases hs
        · rename_i hheard
          split at hs
          · rename_i hg
            rw [u.need_seeker_of_granted hg] at hheard
            exact ⟨hg, Nat.not_lt.1 hput, Nat.not_lt.1 hheard⟩
          · cases hs
  | granter =>
    have hs := standing_granter (h.hears .granter)
    rw [ha] at hs
    split at hs
    · split at hs <;> cases hs
    · rename_i hheard
      split at hs
      · split at hs <;> cases hs
      · rename_i hput
        split at hs
        · rename_i hg
          rw [u.need_granter_of_reply (u.granted_iff.1 hg)] at hheard
          exact ⟨hg, Nat.not_lt.1 hput, Nat.not_lt.1 hheard⟩
        · cases hs

theorem Sound.output_eq (h : u.Sound d) {s : Side} (hcut : (d.partner s).cut = false)
    (hput : (d.partner s).put < (u.output s (d.partner s)).size) :
    u.output s (d.partner s) = u.text s ++ (d.partner s).said ∧
      (s = .granter → u.asks.size ≤ (joined (d.partner s).heard).size) := by
  cases s with
  | seeker =>
    refine ⟨?_, fun hs => by cases hs⟩
    rw [output, written_seeker, Partner.taken_of_not_cut hcut]
    rfl
  | granter =>
    have hwritten := (granter_after (h.hears .granter)).1
    rw [Partner.taken_of_not_cut hcut] at hwritten
    by_cases hsaid : (d.partner .granter).said.size = 0
    · by_cases hneed : (joined (d.partner .granter).heard).size < u.need .granter
      · rw [if_pos hneed] at hwritten
        rw [output, hwritten, ByteArray.size_append, hsaid] at hput
        exact absurd hput (Nat.not_lt_zero _)
      · rw [if_neg hneed] at hwritten
        refine ⟨by rw [output, hwritten], fun _ => ?_⟩
        cases hreply : u.reply with
        | none =>
          rw [output, hwritten, u.text_granter_of_none hreply, ByteArray.size_append, hsaid] at hput
          exact absurd hput (Nat.not_lt_zero _)
        | some answer =>
          rw [← u.need_granter_of_reply hreply]
          exact Nat.not_lt.1 hneed
    · obtain ⟨hg, -, hheard⟩ := (h .granter).spoken hsaid
      have hneed := u.need_granter_of_reply (u.granted_iff.1 hg)
      have hheard' : u.asks.size ≤ (joined (d.partner .granter).heard).size := hheard
      rw [if_neg (by omega)] at hwritten
      exact ⟨by rw [output, hwritten], fun _ => hheard'⟩

theorem Sound.sent (h : u.Sound d) {s : Side} {n : Nat} (hgone : (d.partner s).gone = false)
    (hcut : (d.partner s).cut = false) (hpos : 0 < n)
    (hn : (d.partner s).put + n ≤ (u.output s (d.partner s)).size) :
    u.Sound ((d.setPartner s { d.partner s with put := (d.partner s).put + n }).setPipe s
      { d.pipe s with data := (d.pipe s).data ++
          (u.output s (d.partner s)).extract (d.partner s).put ((d.partner s).put + n) }) := by
  obtain ⟨hout, hheard⟩ := h.output_eq hcut (by omega)
  rw [hout] at hn ⊢
  refine sound_of s ?_ ?_
  · simp only [Duplex.setPipe_self, Duplex.setPipe_other, Duplex.setPipe_partner,
      Duplex.setPartner_self, Duplex.setPartner_other, Duplex.setPartner_pipe]
    exact { h s with
      bounded := hn
      flow := by
        rw [← ByteArray.append_assoc, (h s).flow, Bytes.extract_append_next (by omega)]
      spoken := fun hsaid => by
        obtain ⟨hg, htext, hother⟩ := (h s).spoken hsaid
        exact ⟨hg, Nat.le_trans htext (Nat.le_add_right _ _), hother⟩
      answered := fun hs _ => hheard hs
      gone := fun hg => by rw [hgone] at hg; cases hg }
  · simp only [Duplex.setPipe_self, Duplex.setPipe_other, Duplex.setPipe_partner,
      Duplex.setPartner_self, Duplex.setPartner_other, Duplex.setPartner_pipe]
    exact { h.other s with
      ended := fun he => by
        have := ((h.other s).ended he).1
        rw [hgone] at this
        cases this }

theorem Sound.cutOff (h : u.Sound d) {s : Side} (hgone : (d.partner s).gone = false)
    (hclosed : (d.pipe s).closed = true) :
    u.Sound (d.setPartner s { d.partner s with cut := true }) := by
  refine sound_of s ?_ ?_
  · simp only [Duplex.setPartner_self, Duplex.setPartner_other, Duplex.setPartner_pipe]
    have hother := (h s).closed_iff.1 hclosed
    rw [hgone] at hother
    exact { h s with
      cut := fun _ => hother.resolve_left (by decide)
      gone := fun hg => by rw [hgone] at hg; cases hg }
  · simp only [Duplex.setPartner_self, Duplex.setPartner_other, Duplex.setPartner_pipe]
    exact { h.other s with }

theorem Sound.heardMore (h : u.Sound d) {s : Side} {room : Nat}
    (hgone : (d.partner s).gone = false) (hended : (d.partner s).ended = false) :
    u.Sound ((d.setPartner s { d.partner s with
        heard := (d.partner s).heard ++ [(d.pipe s.other).data.extract 0 room] }).setPipe s.other
      { d.pipe s.other with
        data := (d.pipe s.other).data.extract room (d.pipe s.other).data.size }) := by
  have hmore : joined ((d.partner s).heard ++ [(d.pipe s.other).data.extract 0 room]) =
      joined (d.partner s).heard ++ (d.pipe s.other).data.extract 0 room := by
    rw [joined_append, joined_cons, joined_nil, ByteArray.append_empty]
  have hsize := congrArg ByteArray.size hmore
  rw [ByteArray.size_append] at hsize
  refine sound_of s ?_ ?_
  · simp only [Duplex.setPipe_self, Duplex.setPipe_of_other, Duplex.setPipe_partner,
      Duplex.setPartner_self, Duplex.setPartner_other, Duplex.setPartner_pipe]
    exact { h s with
      spoken := fun hsaid => by
        obtain ⟨hg, htext, hother⟩ := (h s).spoken hsaid
        exact ⟨hg, htext, by simp only; omega⟩
      answered := fun hs hput => by
        have := (h s).answered hs hput
        simp only
        omega
      ended := fun he => by rw [hended] at he; cases he
      gone := fun hg => by rw [hgone] at hg; cases hg }
  · simp only [Duplex.setPipe_self, Duplex.setPipe_of_other, Duplex.setPipe_partner,
      Duplex.setPartner_self, Duplex.setPartner_other, Duplex.setPartner_pipe]
    exact { h.other s with
      flow := by
        rw [hmore, ByteArray.append_assoc, Bytes.extract_append_rest]
        exact (h.other s).flow }

theorem Sound.heardEnd (h : u.Sound d) {s : Side} (hgone : (d.partner s).gone = false)
    (hclosed : (d.pipe s.other).closed = true) (hsize : (d.pipe s.other).data.size = 0) :
    u.Sound (d.setPartner s { d.partner s with ended := true }) := by
  have hother : (d.partner s.other).gone = true := by
    rcases (h.other s).closed_iff.1 hclosed with hg | hg
    · exact hg
    · rw [hgone] at hg; cases hg
  refine sound_of s ?_ ?_
  · simp only [Duplex.setPartner_self, Duplex.setPartner_other, Duplex.setPartner_pipe]
    exact { h s with
      ended := fun _ => ⟨hother, hsize⟩
      gone := fun hg => by rw [hgone] at hg; cases hg }
  · simp only [Duplex.setPartner_self, Duplex.setPartner_other, Duplex.setPartner_pipe]
    exact { h.other s with }

theorem Sound.saidMore (h : u.Sound d) {s : Side} (data : ByteArray)
    (ha : u.standing s (d.partner s) = .agreed) :
    u.Sound (d.setPartner s { d.partner s with said := (d.partner s).said ++ data }) := by
  refine sound_of s ?_ ?_
  · simp only [Duplex.setPartner_self, Duplex.setPartner_other, Duplex.setPartner_pipe]
    have hbounded := (h s).bounded
    exact { h s with
      bounded := by
        rw [← ByteArray.append_assoc, ByteArray.size_append]
        exact Nat.le_add_right_of_le hbounded
      flow := by
        rw [← ByteArray.append_assoc, Bytes.extract_append_left hbounded]
        exact (h s).flow
      spoken := fun _ => h.agreed ha }
  · simp only [Duplex.setPartner_self, Duplex.setPartner_other, Duplex.setPartner_pipe]
    exact { h.other s with }

theorem Sound.refused_cases (h : u.Sound d) (hg : u.Granted) {s : Side}
    (hr : u.standing s (d.partner s) = .refused) :
    (d.partner s).put < (u.text s).size ∧ (d.partner s).cut = true ∨
      (joined (d.partner s).heard).size < (u.text s.other).size ∧ (d.partner s).ended = true := by
  have hreply := u.granted_iff.1 hg
  cases s with
  | seeker =>
    have hs := (standing_seeker (h.hears .seeker)).1
    have hempty : ¬ u.asks.size = 0 := by
      intro hzero
      obtain ⟨first, headers, hread⟩ := u.readBytes_of_reply hreply
      rw [ByteArray.size_eq_zero_iff.1 hzero] at hread
      cases hread
    rw [hr, if_neg hempty, u.need_seeker_of_granted hg, if_pos hg] at hs
    split at hs
    · rename_i hput
      split at hs
      · rename_i hcut
        exact .inl ⟨hput, hcut⟩
      · cases hs
    · split at hs
      · rename_i hheard
        split at hs
        · rename_i hended
          exact .inr ⟨hheard, hended⟩
        · cases hs
      · cases hs
  | granter =>
    have hs := standing_granter (h.hears .granter)
    rw [hr, u.need_granter_of_reply hreply, if_pos hg] at hs
    split at hs
    · rename_i hheard
      split at hs
      · rename_i hended
        exact .inr ⟨hheard, hended⟩
      · cases hs
    · split at hs
      · rename_i hput
        split at hs
        · rename_i hcut
          exact .inl ⟨hput, hcut⟩
        · cases hs
      · cases hs

/-- A side of a granted upgrade does not refuse: it would have to meet a closed pipe before its own
text is taken, or the end before it has heard the other side's, but the other side lets go only once
it has agreed. -/
theorem Sound.not_refused (h : u.Sound d) (hg : u.Granted) (s : Side) :
    u.standing s (d.partner s) ≠ .refused := by
  intro hr
  have hout := h.heard_le s
  have hinn := h.heard_le s.other
  have hbefore : (d.partner s.other).gone = true → (u.text s.other).size ≤ (d.partner s.other).put ∧
      (u.text s).size ≤ (joined (d.partner s.other).heard).size := by
    intro hgone
    have ha := (h.agreed (((h s.other).gone hgone).2 hg)).2
    rwa [Side.other_other] at ha
  rw [Side.other_other] at hinn
  rcases h.refused_cases hg hr with ⟨hput, hcut⟩ | ⟨hheard, hended⟩
  · have := hbefore ((h s).cut hcut)
    omega
  · obtain ⟨hgone, hsize⟩ := (h s).ended hended
    have := hbefore hgone
    omega

theorem Sound.letGo (h : u.Sound d) {s : Side}
    (hreturned : u.standing s (d.partner s) ≠ .pending) :
    u.Sound (d.setPartner s { d.partner s with gone := true }).close := by
  refine sound_of s ?_ ?_
  · simp only [Duplex.close_partner, Duplex.close_pipe, Duplex.setPartner_self,
      Duplex.setPartner_other, Duplex.setPartner_pipe]
    exact { h s with
      closed_iff := by simp [Pipe.close]
      gone := fun _ => ⟨hreturned, fun hg => by
        have hr := h.not_refused hg s
        cases hs : u.standing s (d.partner s) with
        | pending => exact absurd hs hreturned
        | agreed => exact hs
        | refused => exact absurd hs hr⟩ }
  · simp only [Duplex.close_partner, Duplex.close_pipe, Duplex.setPartner_self,
      Duplex.setPartner_other, Duplex.setPartner_pipe]
    exact { h.other s with
      closed_iff := by simp [Pipe.close]
      ended := fun he => ⟨rfl, ((h.other s).ended he).2⟩
      cut := fun _ => rfl }

theorem Sound.step (h : u.Sound d) {move : Duplex.Move} {d' : Duplex}
    (hstep : u.step d move = some d') : u.Sound d' := by
  cases u.effect_of_step hstep with
  | sent s most n hgone hcut hopen hpos hn => exact h.sent hgone hcut hpos hn
  | cut s most hgone hcut hclosed => exact h.cutOff hgone hclosed
  | heard s room hgone hended hpos hsize => exact h.heardMore hgone hended
  | ended s room hgone hended hclosed hsize => exact h.heardEnd hgone hclosed hsize
  | said s data hagreed => exact h.saidMore data hagreed
  | letGo s hgone hreturned => exact h.letGo hreturned

end Upgrade

end Switchboard
