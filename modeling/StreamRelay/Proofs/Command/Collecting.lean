import Mathlib.Order.Basic
import StreamRelay.Command.Collect

/-!
# Collected messages

While nothing disturbs a collector, it prints the messages of the streams it was asked for as they
arrive. The wished number is looked at only after a message was printed, so the collector stops as
soon as it is reached, and a number of zero still lets one message through.
-/

namespace StreamRelay.Command.Collect
open CommandLine

variable {o : CollectOptions} {idle : Option Duration} {format : Format} {printed : Nat}
variable {x : Reception} {rs : List Reception} {received : Output.Received}

theorem length_take_size {raw : Bytes} (h : 16 ≤ raw.length) : (raw.take 16).length = 16 :=
  List.length_take_of_le h

/-- What is to be printed of a reception: a datagram that is at least as long as an id, if its
stream was asked for. -/
def due (o : CollectOptions) : Reception → Option Output.Received
  | .datagram raw source time =>
    if h : 16 ≤ raw.length then
      let id : StreamId := ⟨raw.take 16, length_take_size h⟩
      if o.streams.all (·.contains id) then some ⟨⟨id, raw.drop 16⟩, source, time⟩ else none
    else none
  | _ => none

/-- A datagram that can be sent, or a silence that is no reason to give up. -/
inductive Undisturbed (idle : Option Duration) : Reception → Prop
  | datagram (raw : Bytes) (source : SocketAddress) (time : Nat)
      (h : raw.length ≤ Host.maxDatagram) : Undisturbed idle (.datagram raw source time)
  | silence (millis : Nat) (h : ∀ limit ∈ idle, millis < limit.millis) :
      Undisturbed idle (.silence millis)

def printAll (format : Format) (all : List Output.Received) : Bytes := all.flatMap (·.print format)

def left? (o : CollectOptions) (printed : Nat) : Option Nat :=
  o.count.map fun n => max (n - printed) 1

theorem due_datagram (o : CollectOptions) (raw : Bytes) (source : SocketAddress) (time : Nat) :
    due o (.datagram raw source time) = (wanted o raw).map (⟨·, source, time⟩) := by
  rw [due, wanted, Envelope.split?, StreamId.ofPrefix?]
  by_cases hlength : 16 ≤ raw.length
  · rw [dif_pos hlength, dif_pos hlength]
    simp only [Option.map_some, Option.filter_some]
    split <;> rfl
  · rw [dif_neg hlength, dif_neg hlength]
    rfl

theorem receive_skip (hx : Undisturbed idle x) (hdue : due o x = none) (rs : List Reception) :
    receive o idle format printed (x :: rs) = receive o idle format printed rs := by
  cases hx with
  | datagram raw source time h =>
    rw [due_datagram, Option.map_eq_none_iff] at hdue
    rw [receive, List.take_of_length_le h, hdue]
  | silence millis h =>
    cases idle with
    | none => rw [receive]
    | some limit => rw [receive, if_neg (Nat.not_le.mpr (h limit rfl))]

theorem left?_eq_one_iff : left? o printed = some 1 ↔ o.count.any (· ≤ printed + 1) = true := by
  unfold left?
  cases o.count with
  | none => simp
  | some n =>
    rw [Option.map_some, Option.some_inj, Option.any_some, decide_eq_true_eq]
    omega

theorem receive_due (hx : Undisturbed idle x) (hdue : due o x = some received)
    (rs : List Reception) :
    receive o idle format printed (x :: rs) =
      if left? o printed = some 1 then (.ok (), received.print format)
      else ((receive o idle format (printed + 1) rs).1,
        received.print format ++ (receive o idle format (printed + 1) rs).2) := by
  cases hx with
  | silence millis h => contradiction
  | datagram raw source time h =>
    rw [due_datagram, Option.map_eq_some_iff] at hdue
    obtain ⟨message, hwanted, rfl⟩ := hdue
    rw [receive, List.take_of_length_le h, hwanted]
    simp only [left?_eq_one_iff]

theorem left?_succ {k : Nat} (h : left? o printed = some k) (hk : k ≠ 1) :
    left? o (printed + 1) = some (k - 1) := by
  obtain ⟨n, hn, rfl⟩ := Option.map_eq_some_iff.mp h
  rw [left?, hn, Option.map_some, Option.some_inj]
  omega

/-- The collector stops at the last message it was to print, whatever would come then. -/
theorem receive_reached (hrs : ∀ x ∈ rs, Undisturbed idle x) {k : Nat}
    (hleft : left? o printed = some k) (hk : k ≤ (rs.filterMap (due o)).length)
    (rest : List Reception) :
    receive o idle format printed (rs ++ rest) =
      (.ok (), printAll format ((rs.filterMap (due o)).take k)) := by
  induction rs generalizing printed k with
  | nil =>
    obtain ⟨n, _, rfl⟩ := Option.map_eq_some_iff.mp hleft
    exact absurd hk (by simp)
  | cons x rs ih =>
    have hx := hrs x List.mem_cons_self
    have hrest := fun y hy => hrs y (List.mem_cons_of_mem x hy)
    rw [List.cons_append]
    cases hdue : due o x with
    | none =>
      rw [List.filterMap_cons_none hdue] at hk ⊢
      rw [receive_skip hx hdue]
      exact ih hrest hleft hk
    | some received =>
      rw [List.filterMap_cons_some hdue] at hk ⊢
      -- the last message ends the run here, any other leaves one message fewer to the rest
      by_cases hlast : k = 1
      · subst hlast
        rw [receive_due hx hdue, if_pos hleft, List.take_succ_cons, List.take_zero]
        exact congrArg _ (List.append_nil _).symm
      · have hmore : left? o printed ≠ some 1 := by
          rw [hleft, ne_eq, Option.some_inj]
          exact hlast
        have hpos : k ≠ 0 := by
          obtain ⟨n, _, rfl⟩ := Option.map_eq_some_iff.mp hleft
          omega
        obtain ⟨m, rfl⟩ := Nat.exists_eq_succ_of_ne_zero hpos
        rw [receive_due hx hdue, if_neg hmore,
          ih hrest (left?_succ hleft hlast) (Nat.le_of_succ_le_succ hk), List.take_succ_cons]
        rfl

/-- Before that it prints whatever is due and goes on. -/
theorem receive_unreached (hrs : ∀ x ∈ rs, Undisturbed idle x)
    (hleft : ∀ k ∈ left? o printed, (rs.filterMap (due o)).length < k) (rest : List Reception) :
    let later := receive o idle format (printed + (rs.filterMap (due o)).length) rest
    receive o idle format printed (rs ++ rest) =
      (later.1, printAll format (rs.filterMap (due o)) ++ later.2) := by
  induction rs generalizing printed with
  | nil => rfl
  | cons x rs ih =>
    have hx := hrs x List.mem_cons_self
    have hrest := fun y hy => hrs y (List.mem_cons_of_mem x hy)
    rw [List.cons_append]
    cases hdue : due o x with
    | none =>
      rw [List.filterMap_cons_none hdue] at hleft ⊢
      rw [receive_skip hx hdue]
      exact ih hrest hleft
    | some received =>
      rw [List.filterMap_cons_some hdue] at hleft ⊢
      have hmore : left? o printed ≠ some 1 := by
        intro hone
        exact absurd (hleft 1 hone) (by simp)
      have hleft' : ∀ k ∈ left? o (printed + 1), (rs.filterMap (due o)).length < k := by
        intro k hk
        obtain ⟨n, hn, rfl⟩ := Option.map_eq_some_iff.mp hk
        have hbound := hleft _ (Option.map_eq_some_iff.mpr ⟨n, hn, rfl⟩)
        rw [List.length_cons] at hbound
        omega
      rw [receive_due hx hdue, if_neg hmore, ih hrest hleft', List.length_cons]
      simp only [printAll, List.flatMap_cons, List.append_assoc, Nat.add_assoc, Nat.add_comm 1]

/-- What is due is printed in the order of its arrival: all of it without a wished number, and else
as many messages as were wished, but at least one. The collector stops with the last of them,
whatever would come then, and not before. -/
theorem receive_exact (o : CollectOptions) (format : Format)
    (hrs : ∀ x ∈ rs, Undisturbed idle x) :
    let asked := rs.filterMap (due o)
    (o.count = none →
      receive o idle format 0 rs = (.ok (), printAll format asked)) ∧
    (∀ n, o.count = some n →
      receive o idle format 0 rs = (.ok (), printAll format (asked.take (max n 1)))) ∧
    (∀ n, o.count = some n → max n 1 ≤ asked.length → ∀ rest,
      receive o idle format 0 (rs ++ rest) = receive o idle format 0 rs) ∧
    ((∀ n, o.count = some n → asked.length < max n 1) → ∀ rest,
      let later := receive o idle format asked.length rest
      receive o idle format 0 (rs ++ rest) = (later.1, printAll format asked ++ later.2)) := by
  intro asked
  have hstop {n : Nat} (hn : o.count = some n) (hreached : max n 1 ≤ asked.length) (rest) :
      receive o idle format 0 (rs ++ rest) = (.ok (), printAll format (asked.take (max n 1))) := by
    refine receive_reached hrs ?_ hreached rest
    rw [left?, hn]
    rfl
  have hgo (hfew : ∀ n, o.count = some n → asked.length < max n 1) (rest) :
      receive o idle format 0 (rs ++ rest) =
        ((receive o idle format asked.length rest).1,
          printAll format asked ++ (receive o idle format asked.length rest).2) := by
    have hleft : ∀ k ∈ left? o 0, asked.length < k := by
      intro k hk
      obtain ⟨n, hn, rfl⟩ := Option.map_eq_some_iff.mp hk
      exact hfew n hn
    rw [receive_unreached hrs hleft, Nat.zero_add]
  have hall (hfew : ∀ n, o.count = some n → asked.length < max n 1) :
      receive o idle format 0 rs = (.ok (), printAll format asked) := by
    have hend := hgo hfew []
    rw [List.append_nil, receive, List.append_nil] at hend
    exact hend
  refine ⟨?_, ?_, ?_, hgo⟩
  · intro hn
    refine hall ?_
    simp [hn]
  · intro n hn
    by_cases hreached : max n 1 ≤ asked.length
    · have hend := hstop hn hreached []
      rw [List.append_nil] at hend
      exact hend
    · have hfew := Nat.not_le.mp hreached
      rw [List.take_of_length_le (Nat.le_of_lt hfew)]
      refine hall ?_
      intro m hm
      cases hn.symm.trans hm
      exact hfew
  · intro n hn hreached rest
    have hend := hstop hn hreached []
    rw [List.append_nil] at hend
    rw [hstop hn hreached rest, hend]

def mixed : List Reception :=
  let source : SocketAddress := .v4 (Ipv4.of 127 0 0 1) 9
  [.datagram [1, 2, 3] source 0,
    .datagram (StreamId.nil.bytes ++ [4]) source 0,
    .datagram (List.replicate 16 7 ++ [5]) source 1,
    .silence 100,
    .datagram (StreamId.nil.bytes ++ [6, 6]) source 2,
    .datagram StreamId.nil.bytes source 3]

theorem undisturbed_mixed : ∀ x ∈ mixed, Undisturbed (some ⟨500⟩) x := by
  intro x hx
  simp only [mixed, List.mem_cons, List.not_mem_nil, or_false] at hx
  rcases hx with rfl | rfl | rfl | rfl | rfl | rfl
  all_goals first
    | exact .datagram _ _ _ (by decide)
    | exact .silence _ (by decide)

/-- Two of the three are printed, and a failure that would come after the last is not met. -/
theorem receive_exact_mixed :
    let o : CollectOptions := { streams := some [.nil], count := some 2 }
    let rest : List Reception := [.failed .networkUnreachable]
    (∀ x ∈ mixed, Undisturbed (some ⟨500⟩) x) ∧
      receive o (some ⟨500⟩) .raw 0 (mixed ++ rest) = (.ok (), [4, 6, 6]) := by
  intro o rest
  obtain ⟨_, hprints, hstops, _⟩ := receive_exact o .raw undisturbed_mixed
  refine ⟨undisturbed_mixed, ?_⟩
  rw [hstops 2 rfl (by decide) rest, hprints 2 rfl]
  rfl

/-- With a wished number of zero, one message is still printed. -/
theorem not_receive_none :
    ¬ ∀ (o : CollectOptions) (idle : Option Duration) (format : Format) (n : Nat)
        (rs : List Reception), o.count = some n → (∀ x ∈ rs, Undisturbed idle x) →
      receive o idle format 0 rs =
        (.ok (), printAll format ((rs.filterMap (due o)).take n)) := by
  intro h
  have hzero := h { streams := some [.nil], count := some 0 } (some ⟨500⟩) .raw 0 mixed rfl
    undisturbed_mixed
  have hone : receive { streams := some [.nil], count := some 0 } (some ⟨500⟩) .raw 0 mixed =
      (.ok (), [4]) := rfl
  rw [hone, List.take_zero] at hzero
  exact absurd hzero (by decide)

end StreamRelay.Command.Collect
