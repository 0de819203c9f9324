import Switchboard.Channel.Sink
import Switchboard.Proofs.Bytes

/-!
# Writing to a channel

A channel takes what is written to it in portions, and may break on the way. However the portions
fall, writing either ends with everything taken, or fails with a beginning of it taken
(`Sink.writing_writeAll`); and it fails only where the channel breaks, or if a write takes nothing
of what it is given (`Sink.Refuses`).
-/

namespace Switchboard

namespace Sink

variable {sink : Sink} {data : ByteArray} {start n : Nat} {fault : IoFault}

/-- A channel takes so many bytes, at least, before it breaks. -/
def Fits (sink : Sink) (n : Nat) : Prop :=
  ∀ limit kind, sink.breaksAt = some (limit, kind) → n ≤ limit - sink.written.size

/-- Why a channel takes `n` more bytes and not one more: it breaks there, or some write is given
bytes and takes none. -/
inductive Refuses (sink : Sink) (n : Nat) : IoFault → Prop
  | broken {limit : Nat} {kind : IoKind} (hbreaks : sink.breaksAt = some (limit, kind))
      (hn : n = limit - sink.written.size) : Refuses sink n (.bare kind)
  | stuck {i : Nat} (hportion : sink.portion i = some 0) : Refuses sink n (.bare .writeZero)

/-! ## One write -/

theorem writeFrom_end (h : data.size ≤ start) : writeFrom data start sink = (none, sink) := by
  rw [writeFrom, if_pos h]

theorem writeFrom_broken (hstart : start < data.size) (h : sink.broken = some fault) :
    writeFrom data start sink = (some fault, sink) := by
  rw [writeFrom, if_neg (Nat.not_le.2 hstart), h]

theorem writeFrom_stuck (hstart : start < data.size) (hbroken : sink.broken = none)
    (hn : sink.accepts (data.size - start) = 0) :
    writeFrom data start sink =
      (some (.bare .writeZero), { sink with writes := sink.writes + 1 }) := by
  have hnone : data.extract start start = ByteArray.empty :=
    ByteArray.extract_eq_empty_iff.2 (by omega)
  rw [writeFrom, if_neg (Nat.not_le.2 hstart), hbroken]
  simp only [hn, Nat.add_zero, hnone, ByteArray.append_empty, if_true]

theorem writeFrom_accepts (hstart : start < data.size) (hbroken : sink.broken = none)
    (hn : sink.accepts (data.size - start) = n) (hpos : n ≠ 0) :
    writeFrom data start sink = writeFrom data (start + n)
      { sink with
        written := sink.written ++ data.extract start (start + n), writes := sink.writes + 1 } := by
  rw [writeFrom, if_neg (Nat.not_le.2 hstart), hbroken]
  subst hn
  exact if_neg hpos

theorem refuses_of_broken (h : sink.broken = some fault) : sink.Refuses 0 fault := by
  unfold Sink.broken at h
  cases hbreaks : sink.breaksAt with
  | none => rw [hbreaks] at h; cases h
  | some breaks =>
    rw [hbreaks] at h
    by_cases hlimit : breaks.1 ≤ sink.written.size
    · simp only [if_pos hlimit, Option.some.injEq] at h
      subst h
      exact .broken hbreaks (by omega)
    · simp only [if_neg hlimit] at h
      cases h

/-- A channel that is not broken has room for another byte. -/
theorem fits_one (h : sink.broken = none) : sink.Fits 1 := by
  intro limit kind hbreaks
  unfold Sink.broken at h
  rw [hbreaks] at h
  by_cases hlimit : limit ≤ sink.written.size
  · simp only [if_pos hlimit] at h
    cases h
  · omega

/-- No write takes more than it is given, or more than there is room for. -/
theorem accepts_fits (sink : Sink) (n : Nat) :
    sink.accepts n ≤ n ∧ sink.Fits (sink.accepts n) := by
  constructor
  · unfold accepts
    cases sink.portion sink.writes with
    | none =>
      cases sink.breaksAt with
      | none => exact Nat.le_refl n
      | some breaks => exact Nat.min_le_right ..
    | some most =>
      cases sink.breaksAt with
      | none => exact Nat.min_le_right ..
      | some breaks => exact Nat.le_trans (Nat.min_le_right ..) (Nat.min_le_right ..)
  · intro limit kind hbreaks
    simp only [accepts, hbreaks]
    exact Nat.min_le_left ..

/-- A write takes what it is given, the portion allows and there is room for. -/
theorem le_accepts {m : Nat} (hn : m ≤ n) (hfits : sink.Fits m)
    (hportion : ∀ most, sink.portion sink.writes = some most → m ≤ most) : m ≤ sink.accepts n := by
  have hoffer : ∀ offer, m ≤ offer → (∀ limit kind, sink.breaksAt = some (limit, kind) →
      m ≤ min (limit - sink.written.size) offer) := by
    intro offer hoffer limit kind hbreaks
    exact Nat.le_min.2 ⟨hfits limit kind hbreaks, hoffer⟩
  unfold accepts
  cases hmost : sink.portion sink.writes with
  | none =>
    cases hbreaks : sink.breaksAt with
    | none => exact hn
    | some breaks => exact hoffer n hn _ _ hbreaks
  | some most =>
    have hboth : m ≤ min most n := Nat.le_min.2 ⟨hportion most hmost, hn⟩
    cases hbreaks : sink.breaksAt with
    | none => exact hboth
    | some breaks => exact hoffer _ hboth _ _ hbreaks

/-- Only a portion of no bytes makes a write take nothing. -/
theorem portion_of_accepts_zero (hbroken : sink.broken = none) (hn : 0 < n)
    (h : sink.accepts n = 0) : sink.portion sink.writes = some 0 := by
  by_cases hportion : sink.portion sink.writes = some 0
  · exact hportion
  · have hone : 1 ≤ sink.accepts n := by
      apply le_accepts hn (fits_one hbroken)
      intro most hmost
      have hne : most ≠ 0 := fun hzero => hportion (by rw [hmost, hzero])
      omega
    omega

theorem writeFrom_step (sink : Sink) (hstart : start < data.size) :
    (∃ fault writes, sink.Refuses 0 fault ∧
      writeFrom data start sink = (some fault, { sink with writes })) ∨
    ∃ m, 0 < m ∧ start + m ≤ data.size ∧ sink.Fits m ∧
      writeFrom data start sink = writeFrom data (start + m)
        { sink with
          written := sink.written ++ data.extract start (start + m)
          writes := sink.writes + 1 } := by
  cases hbroken : sink.broken with
  | some fault =>
    left
    exact ⟨fault, sink.writes, refuses_of_broken hbroken, writeFrom_broken hstart hbroken⟩
  | none =>
    by_cases hzero : sink.accepts (data.size - start) = 0
    · left
      have hportion := portion_of_accepts_zero hbroken (by omega) hzero
      exact ⟨_, _, .stuck hportion, writeFrom_stuck hstart hbroken hzero⟩
    · right
      obtain ⟨hle, hfits⟩ := sink.accepts_fits (data.size - start)
      exact ⟨_, by omega, by omega, hfits, writeFrom_accepts hstart hbroken rfl hzero⟩

/-! ## All writes -/

section Next

variable {more : ByteArray} {writes : Nat}

theorem Fits.of_next (h : Fits { sink with written := sink.written ++ more, writes } n)
    (hmore : sink.Fits more.size) : sink.Fits (more.size + n) := by
  intro limit kind hbreaks
  have hnow := hmore limit kind hbreaks
  have hthen := h limit kind hbreaks
  rw [ByteArray.size_append] at hthen
  omega

theorem Refuses.of_next (h : Refuses { sink with written := sink.written ++ more, writes } n fault)
    (hmore : sink.Fits more.size) : sink.Refuses (more.size + n) fault := by
  cases h with
  | stuck hportion => exact .stuck hportion
  | broken hbreaks hn =>
    have hnow := hmore _ _ hbreaks
    rw [ByteArray.size_append] at hn
    exact .broken hbreaks (by omega)

end Next

/-- By strong induction on what is left to write: every write takes some of it, or is the last. -/
theorem writeFrom_cases (data : ByteArray) (start : Nat) (sink : Sink) :
    (∃ writes, sink.Fits (data.size - start) ∧ writeFrom data start sink = (none,
      { sink with written := sink.written ++ data.extract start data.size, writes })) ∨
    ∃ n fault writes, start + n < data.size ∧ sink.Refuses n fault ∧
      writeFrom data start sink = (some fault,
        { sink with written := sink.written ++ data.extract start (start + n), writes }) := by
  induction hk : data.size - start using Nat.strongRecOn generalizing start sink with
  | ind k ih =>
    have hnothing : ∀ stop ≤ start, sink.written ++ data.extract start stop = sink.written := by
      intro stop hstop
      rw [ByteArray.extract_eq_empty_iff.2 (by omega), ByteArray.append_empty]
    by_cases hend : data.size ≤ start
    · left
      refine ⟨sink.writes, fun _ _ _ => by omega, ?_⟩
      rw [writeFrom_end hend, hnothing _ hend]
    rcases sink.writeFrom_step (Nat.not_le.1 hend) with
      ⟨fault, writes, hrefuses, hwrite⟩ | ⟨m, hpos, hle, hfits, hwrite⟩
    · right
      refine ⟨0, fault, writes, by omega, hrefuses, ?_⟩
      rw [hwrite, hnothing _ (by omega)]
    · have hsize : (data.extract start (start + m)).size = m := by
        rw [ByteArray.size_extract]
        omega
      have hpieces : ∀ stop, start + m ≤ stop → data.extract start (start + m) ++
          data.extract (start + m) stop = data.extract start stop := by
        intro stop hstop
        exact (ByteArray.extract_eq_extract_append_extract _ (by omega) hstop).symm
      rw [← hsize] at hfits
      rw [hwrite]
      rcases ih _ (by omega) (start + m)
        { sink with
          written := sink.written ++ data.extract start (start + m)
          writes := sink.writes + 1 } rfl with
        ⟨writes, hthen, hlater⟩ | ⟨n, fault, writes, hn, hrefuses, hlater⟩
      · left
        have hall := hthen.of_next hfits
        rw [hsize, show m + (data.size - (start + m)) = k by omega] at hall
        refine ⟨writes, hall, ?_⟩
        rw [hlater, ByteArray.append_assoc, hpieces _ hle]
      · right
        have hall := hrefuses.of_next hfits
        rw [hsize] at hall
        refine ⟨m + n, fault, writes, by omega, hall, ?_⟩
        rw [hlater, ByteArray.append_assoc, hpieces _ (by omega), Nat.add_assoc]

/-- What writing some bytes to a channel comes to: the failure, if any, the bytes that the channel
takes, and the channel after them. -/
inductive Writing (data : ByteArray) (before : Sink) : Option IoFault → ByteArray → Sink → Prop
  | whole {writes : Nat} (hfits : before.Fits data.size) :
      Writing data before none data { before with written := before.written ++ data, writes }
  | cut {n writes : Nat} {fault : IoFault} (hn : n < data.size)
      (hrefuses : before.Refuses n fault) :
      Writing data before (some fault) (data.extract 0 n)
        { before with written := before.written ++ data.extract 0 n, writes }

/-- **Writing takes everything or a beginning.** -/
theorem writing_writeAll (data : ByteArray) (sink : Sink) :
    ∃ part, Writing data sink (sink.writeAll data).1 part (sink.writeAll data).2 := by
  unfold writeAll
  rcases writeFrom_cases data 0 sink with
    ⟨writes, hfits, hwrite⟩ | ⟨n, fault, writes, hn, hrefuses, hwrite⟩
  · rw [hwrite, ByteArray.extract_zero_size]
    exact ⟨data, .whole hfits⟩
  · rw [Nat.zero_add] at hn hwrite
    rw [hwrite]
    exact ⟨data.extract 0 n, .cut hn hrefuses⟩

theorem writing_of_writeAll {failure : Option IoFault} {after : Sink}
    (h : sink.writeAll data = (failure, after)) : ∃ part, Writing data sink failure part after := by
  obtain ⟨part, hwriting⟩ := sink.writing_writeAll data
  rw [h] at hwriting
  exact ⟨part, hwriting⟩

theorem writeAll_of_accepting (h : ∀ n fault, ¬ sink.Refuses n fault) (data : ByteArray) :
    ∃ writes, sink.writeAll data = (none,
      { sink with written := sink.written ++ data, writes }) := by
  rcases hrun : sink.writeAll data with ⟨failure, after⟩
  obtain ⟨part, hwriting⟩ := writing_of_writeAll hrun
  cases hwriting with
  | whole => exact ⟨_, rfl⟩
  | cut hn hrefuses => exact absurd hrefuses (h _ _)

end Sink

end Switchboard
