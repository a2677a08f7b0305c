import Testjig.Serial.Overrun

namespace Testjig.Serial

open Machine Testjig.Sequence

/-- What was written was accepted, in the same order, and all of it once no flush is under way or asked for. -/
def InOrder (s : Console) : Prop :=
  s.written <+: s.accepted ∧
    (s.flush = none → s.pending = false ∨ s.syncConsole = true → s.written = s.accepted)

/-- No flush is under way that has sent a byte and not yet told so in `cons`. -/
def Published (s : Console) : Prop := ∀ flush, s.flush = some flush → flush.c = s.cons

theorem visits_whole {inputs : List ConsoleInput} {s final : Console} (run : exec step inputs boot = .ok final)
    (whole : final.overrun = false) (visits : Visits step inputs boot s) : s.overrun = false := by
  obtain ⟨first, rest, split, before⟩ := visits
  rw [split, exec_append_ok] at run
  obtain ⟨same, before', after⟩ := run
  rw [before] at before'
  cases before'
  rw [← Bool.not_eq_true] at whole ⊢
  intro overrun
  apply whole
  exact exec_invariant (fun _ _ _ overrun taken => Console.step_overrun taken overrun) overrun after

namespace Console

variable {s next : Console} {read sent : Nat}

theorem step_async {input : ConsoleInput} (taken : step input s = .ok next) (notReset : input ≠ .systemReset) :
    next.syncConsole = false := by
  unfold step at taken
  split at taken
  case isTrue => cases taken
  case isFalse async =>
  have off : s.syncConsole = false := by simpa using async
  cases input with
  | vprintk text =>
    cases taken
    obtain ⟨pending, printed, -⟩ := s.vprintk_async text off
    rw [printed]
    exact (stage_frame (shown text) s).2.2.2.2.trans off
  | softirqConsole =>
    simp only at taken
    split at taken <;> cases taken
    exact off
  | sendByte =>
    simp only at taken
    split at taken
    · split at taken <;> cases taken
      exact off
    · cases taken
  | publish =>
    simp only at taken
    split at taken
    · split at taken <;> cases taken
      exact off
    · cases taken
  | systemReset => exact absurd rfl notReset

theorem systemReset_taken (taken : step .systemReset s = .ok next) :
    s.syncConsole = false ∧ next = s.systemReset := by
  unfold step at taken
  split at taken <;> cases taken
  rename_i async
  exact ⟨by simpa using async, rfl⟩

theorem Ordered.inOrder (ordered : s.Ordered read sent) (exact' : s.written = s.accepted.take sent)
    (synced : s.syncConsole = true → sent = s.accepted.length) : InOrder s := by
  constructor
  · rw [exact']
    exact List.take_prefix sent s.accepted
  · intro idle settled
    have all : sent = s.accepted.length := by
      rcases settled with quiet | sync
      · have tracks := ordered.tracks
        rw [Tracks, idle] at tracks
        obtain ⟨same, kicked⟩ := tracks
        rw [same]
        apply ordered.holds.read_eq
        by_contra more
        rw [kicked more] at quiet
        cases quiet
      · exact synced sync
    rw [exact', all, List.take_length]

/-- A flush that has published what it sent is one that has sent nothing since. -/
theorem Ordered.published_iff (ordered : s.Ordered read sent) : Published s ↔ sent = read := by
  have tracks := ordered.tracks
  have room := ordered.holds.room
  rw [ringSize] at room
  rw [Tracks] at tracks
  rw [Published]
  split at tracks
  · rename_i idle
    simp [idle, tracks.1]
  · rename_i flush busy
    obtain ⟨stop, same, low, high, bound, -⟩ := tracks
    simp only [busy, Option.some.injEq, forall_eq', same, ordered.holds.cons]
    constructor
    · intro equal
      exact (ofNat_inj low (by omega) equal.symm).symm
    · intro equal
      rw [equal]

theorem systemReset_inOrder (ordered : s.Ordered read sent) (exact' : s.written = s.accepted.take sent)
    (async : s.syncConsole = false) : InOrder s.systemReset ↔ Published s := by
  obtain ⟨order, bound⟩ := ordered.sent_le
  -- The reset sends everything from `read` on, after the `sent` bytes that are out already.
  obtain ⟨-, idle, sync, accepted, written⟩ := systemReset_holds ordered.holds async
  rw [ordered.published_iff]
  constructor
  · rintro ⟨front, -⟩
    have short := front.length_le
    simp only [accepted, written, exact', List.length_append, List.length_take, List.length_drop] at short
    omega
  · intro same
    have all : s.systemReset.written = s.systemReset.accepted := by
      rw [written, accepted, exact', same, List.take_append_drop]
    constructor
    · exact ⟨[], by rw [List.append_nil, all]⟩
    · exact fun _ _ => all

end Console

def Before (s : Console) : Prop := ∃ read sent, s.Ordered read sent ∧ s.written = s.accepted.take sent

theorem visits_before {inputs : List ConsoleInput} {s final : Console} (run : exec step inputs boot = .ok final)
    (whole : final.overrun = false) (visits : Visits step inputs boot s) (async : s.syncConsole = false) :
    Before s := by
  have kept : s.syncConsole = false → Before s := by
    apply visits_invariant _ _ visits
    · intro input before after takes known taken async
      have notReset : input ≠ .systemReset := by
        rintro rfl
        obtain ⟨off, rfl⟩ := Console.systemReset_taken taken
        obtain ⟨read, sent, ordered, -⟩ := known off
        rw [(Console.systemReset_holds ordered.holds off).2.2.1] at async
        cases async
      have off : before.syncConsole = false := by
        unfold step at taken
        split at taken
        · cases taken
        · rename_i off
          simpa using off
      obtain ⟨read, sent, ordered, exact'⟩ := known off
      obtain ⟨read', sent', later, carried⟩ :=
        Console.step_ordered taken notReset ordered (visits_whole run whole (takes.visits taken))
      exact ⟨read', sent', later, carried exact'⟩
    · intro _
      exact ⟨0, 0, boot_ordered, rfl⟩
  exact kept async

theorem Before.inOrder {s : Console} (known : Before s) (async : s.syncConsole = false) : InOrder s := by
  obtain ⟨read, sent, ordered, exact'⟩ := known
  apply ordered.inOrder exact'
  intro sync
  rw [async] at sync
  cases sync

/-- As long as the ring is not overrun, its bytes are written once each and in order exactly when no reset cuts
off a flush with bytes sent. -/
theorem console_in_order_iff (inputs : List ConsoleInput) (final : Console) (run : exec step inputs boot = .ok final)
    (whole : final.overrun = false) :
    (∀ s, Visits step inputs boot s → InOrder s) ↔
      ∀ s, Takes step inputs boot .systemReset s → Published s := by
  constructor
  · intro inOrder s takes
    obtain ⟨next, taken⟩ := takes.taken run
    have after := inOrder next (takes.visits taken)
    obtain ⟨async, rfl⟩ := Console.systemReset_taken taken
    obtain ⟨read, sent, ordered, exact'⟩ := visits_before run whole takes.visits_before async
    exact (Console.systemReset_inOrder ordered exact' async).mp after
  · intro published s visits
    apply visits_invariant _ _ visits
    · intro input before after takes _ taken
      by_cases reset : input = .systemReset
      · subst reset
        obtain ⟨async, rfl⟩ := Console.systemReset_taken taken
        obtain ⟨read, sent, ordered, exact'⟩ := visits_before run whole takes.visits_before async
        exact (Console.systemReset_inOrder ordered exact' async).mpr (published before takes)
      · have async := Console.step_async taken reset
        exact (visits_before run whole (takes.visits taken) async).inOrder async
    · exact ⟨List.prefix_rfl, fun _ _ => rfl⟩

theorem console_in_order_iff_line :
    ∃ final, exec step [.vprintk [0x61, lf], .softirqConsole, .systemReset] boot = .ok final ∧
      final.written = [0x61, cr, lf] ++ expand resetting ∧
      ((∀ s, Visits step [.vprintk [0x61, lf], .softirqConsole, .systemReset] boot s → InOrder s) ↔
        ∀ s, Takes step [.vprintk [0x61, lf], .softirqConsole, .systemReset] boot .systemReset s → Published s) := by
  obtain ⟨final, run, checked⟩ := exists_of_succeedsWith
    (fun s : Console => decide (s.overrun = false ∧ s.written = [0x61, cr, lf] ++ expand resetting))
    (exec step [.vprintk [0x61, lf], .softirqConsole, .systemReset] boot) (by decide +kernel)
  obtain ⟨whole, written⟩ := of_decide_eq_true checked
  exact ⟨final, run, written, console_in_order_iff _ final run whole⟩

/-- A reset right after the first byte of a flush sends that byte again. -/
theorem console_sends_twice :
    ∃ final, exec step [.vprintk [0x61], .softirqConsole, .sendByte, .systemReset] boot = .ok final ∧
      final.overrun = false ∧ final.accepted = 0x61 :: expand resetting ∧
      final.written = 0x61 :: 0x61 :: expand resetting := by
  obtain ⟨final, run, checked⟩ := exists_of_succeedsWith
    (fun s : Console => decide (s.overrun = false ∧ s.accepted = 0x61 :: expand resetting ∧
      s.written = 0x61 :: 0x61 :: expand resetting))
    (exec step [.vprintk [0x61], .softirqConsole, .sendByte, .systemReset] boot) (by decide +kernel)
  obtain ⟨whole, accepted, written⟩ := of_decide_eq_true checked
  exact ⟨final, run, whole, accepted, written⟩

end Testjig.Serial
