import Mathlib.Data.List.ReduceOption
import StreamRelay.Proofs.Bridge.Bystanders

/-!
# Runs without one connection

When a connection is taken out of a run, the connections behind it move up by one place and get the
threads with the numbers before theirs. The other threads keep their moves, and their connections
are found in the same phases; the accepting thread, which has one worker less, may make other moves.
-/

namespace StreamRelay.Bridge
open Region

def shift (place other : Nat) : Nat := if other < place then other else other - 1

namespace Session

def renumbered (sessions : List Session) : List Session :=
  sessions.mapIdx fun place s => s.onThread (connectionThread (place + 1))

theorem onThread_of_eq {s : Session} {t : Thread} (h : s.connection.thread = t) :
    s.onThread t = s := by
  subst h
  rfl

variable {sessions : List Session} {place other : Nat}

theorem renumbered_of_threads
    (h : ∀ place s, sessions[place]? = some s →
      s.connection.thread = connectionThread (place + 1)) :
    renumbered sessions = sessions := by
  apply List.ext_getElem?
  intro place
  rw [renumbered, List.getElem?_mapIdx]
  cases hs : sessions[place]? with
  | none => rfl
  | some s => exact congrArg some (onThread_of_eq (h place s hs))

theorem getElem?_renumbered_eraseIdx (h : other ≠ place) :
    (renumbered (sessions.eraseIdx place))[shift place other]? =
      sessions[other]?.map fun s => s.onThread (connectionThread (shift place other + 1)) := by
  rw [renumbered, List.getElem?_mapIdx]
  unfold shift
  split
  · rename_i hlt
    rw [List.getElem?_eraseIdx_of_lt hlt]
  · have hgt : place < other := by omega
    rw [List.getElem?_eraseIdx_of_ge (by omega), Nat.sub_add_cancel (by omega)]

theorem renumbered_eraseIdx_set (h : other ≠ place) (s : Session) :
    renumbered ((sessions.set other s).eraseIdx place) =
      (renumbered (sessions.eraseIdx place)).set (shift place other)
        (s.onThread (connectionThread (shift place other + 1))) := by
  unfold shift renumbered
  split
  · rename_i hlt
    rw [List.eraseIdx_set_gt hlt, List.mapIdx_set]
  · rw [List.eraseIdx_set_lt (by omega), List.mapIdx_set]

theorem renumbered_eraseIdx_append (h : place < sessions.length) (s : Session) :
    renumbered ((sessions ++ [s]).eraseIdx place) =
      renumbered (sessions.eraseIdx place) ++ [s.onThread (connectionThread sessions.length)] := by
  have hlength : (sessions.eraseIdx place).length + 1 = sessions.length := by
    rw [List.length_eraseIdx, if_pos h]
    omega
  rw [List.eraseIdx_append_of_lt_length h, renumbered, List.mapIdx_concat, hlength]
  rfl

theorem mem_renumbered_eraseIdx {s : Session} (h : s ∈ renumbered (sessions.eraseIdx place)) :
    ∃ s' ∈ sessions, s'.phase = s.phase := by
  obtain ⟨other, hother, rfl⟩ := List.mem_mapIdx.mp h
  exact ⟨_, List.mem_of_mem_eraseIdx (List.getElem_mem hother), rfl⟩

end Session

namespace Moment

def Move.isAcceptor : Move → Bool
  | .acceptor _ => true
  | _ => false

def Move.arrival? : Move → Option Frame.Source
  | .acceptor arrival => arrival
  | _ => none

def Move.without (place : Nat) : Move → Option Move
  | .acceptor _ => none
  | .session other usable =>
    if other = place then none else some (.session (shift place other) usable)
  | move => some move

def found (place : Nat) (m : Moment) : Move → List Session.Phase
  | .session other _ => if other = place then (m.sessions[place]?.map Session.phase).toList else []
  | _ => []

def trail (place : Nat) (m : Moment) : List Move → List Session.Phase
  | [] => []
  | move :: moves => found place m move ++ trail place (m.move move) moves

variable {m m' : Moment} {place : Nat}

theorem trail_append (place : Nat) (m : Moment) (front back : List Move) :
    trail place m (front ++ back) = trail place m front ++ trail place (m.run front) back := by
  induction front generalizing m with
  | nil => rfl
  | cons move front ih =>
    rw [List.cons_append, trail, trail, ih, List.append_assoc]
    rfl

theorem trail_acceptors (place : Nat) (m : Moment) (arrivals : List (Option Frame.Source)) :
    trail place m (arrivals.map .acceptor) = [] := by
  induction arrivals generalizing m with
  | nil => rfl
  | cons arrival arrivals ih => exact ih (m.stepAcceptor arrival)

theorem mem_trail {phase : Session.Phase} {moves : List Move} (h : phase ∈ trail place m moves) :
    ∃ front, front <+: moves ∧ ∃ s, (m.run front).sessions[place]? = some s ∧ s.phase = phase := by
  induction moves generalizing m with
  | nil => contradiction
  | cons move moves ih =>
    rcases List.mem_append.mp h with h | h
    · refine ⟨[], List.nil_prefix, ?_⟩
      cases move with
      | session other usable =>
        rw [found] at h
        split at h
        · rw [Option.mem_toList, Option.map_eq_some_iff] at h
          exact h
        · contradiction
      | _ => contradiction
    · obtain ⟨front, hfront, hs⟩ := ih h
      exact ⟨move :: front, (List.prefix_cons_inj move).mpr hfront, hs⟩

/-- These moves are those of the other threads, and find the connections as they were. Nobody else
connects. -/
structure Omits (place : Nat) (m m' : Moment) (moves moves' : List Move) : Prop where
  outside : ∀ move ∈ moves', move.IsOutside
  others : moves'.filter (!·.isAcceptor) = moves.filterMap (Move.without place)
  arrivals : (moves'.filterMap Move.arrival?).Sublist (moves.filterMap Move.arrival?)
  trails : ∀ other, other ≠ place → trail (shift place other) m' moves' = trail other m moves

theorem Omits.append {front front' back back' : List Move} (h : Omits place m m' front front')
    (h' : Omits place (m.run front) (m'.run front') back back') :
    Omits place m m' (front ++ back) (front' ++ back') where
  outside := List.forall_mem_append.mpr ⟨h.outside, h'.outside⟩
  others := by rw [List.filter_append, List.filterMap_append, h.others, h'.others]
  arrivals := by
    rw [List.filterMap_append, List.filterMap_append]
    exact h.arrivals.append h'.arrivals
  trails other hother := by
    rw [trail_append, trail_append, h.trails other hother, h'.trails other hother]

/-- The accepting thread may make any steps instead of one. -/
theorem Omits.acceptor (place : Nat) (m m' : Moment) {arrival : Option Frame.Source}
    {arrivals : List (Option Frame.Source)}
    (harrivals : arrivals.reduceOption.Sublist arrival.toList) :
    Omits place m m' [.acceptor arrival] (arrivals.map .acceptor) where
  outside := by
    intro move hmove
    obtain ⟨arrival, _, rfl⟩ := List.mem_map.mp hmove
    trivial
  others := by
    rw [List.filter_eq_nil_iff.mpr]
    · rfl
    · intro move hmove
      obtain ⟨arrival, _, rfl⟩ := List.mem_map.mp hmove
      exact Bool.false_ne_true
  arrivals := by
    have hone : [Move.acceptor arrival].filterMap Move.arrival? = arrival.toList := by
      cases arrival <;> rfl
    rw [List.filterMap_map, hone]
    exact harrivals
  trails other _ := trail_acceptors (shift place other) m' arrivals

theorem Omits.of_same (place : Nat) (m m' : Moment) {move : Move} (hout : move.IsOutside)
    (hothers : [move].filter (!·.isAcceptor) = [move].filterMap (Move.without place))
    (hfound : ∀ other m, found other m move = []) : Omits place m m' [move] [move] where
  outside := List.forall_mem_singleton.mpr hout
  others := hothers
  arrivals := .refl _
  trails other _ := by
    simp only [trail, hfound]

theorem shift_inj {other another : Nat} (h : other ≠ place) (h' : another ≠ place)
    (hsame : shift place other = shift place another) : other = another := by
  unfold shift at hsame
  split at hsame <;> split at hsame <;> omega

theorem Omits.session {other : Nat} (hother : other ≠ place) (usable : Bool)
    (hget : ∀ another, another ≠ place → m'.sessions[shift place another]?.map Session.phase =
      m.sessions[another]?.map Session.phase) :
    Omits place m m' [.session other usable] [.session (shift place other) usable] where
  outside := List.forall_mem_singleton.mpr trivial
  others := by
    simp [Move.isAcceptor, Move.without, hother]
  arrivals := .refl _
  trails another hanother := by
    simp only [trail, found, List.append_nil]
    by_cases hsame : other = another
    · rw [if_pos hsame, if_pos (congrArg (shift place) hsame), hget another hanother]
    · rw [if_neg hsame, if_neg fun h => hsame (shift_inj hother hanother h)]

theorem Omits.own (place : Nat) (m m' : Moment) (usable : Bool) :
    Omits place m m' [.session place usable] [] where
  outside := nofun
  others := by
    simp [Move.without]
  arrivals := .refl _
  trails other hother := by
    simp only [trail, found, if_neg hother.symm, List.append_nil]

theorem getElem?_shift (hplace : m.sessions.length ≤ place) {other : Nat} (hother : other ≠ place) :
    m.sessions[shift place other]? = m.sessions[other]? := by
  unfold shift
  split
  · rfl
  · rw [List.getElem?_eq_none (by omega), List.getElem?_eq_none (by omega)]

theorem stepSession_shift (hplace : m.sessions.length ≤ place) {other : Nat}
    (hother : other ≠ place) (usable : Bool) :
    m.stepSession (shift place other) usable = m.stepSession other usable := by
  by_cases hlt : other < place
  · rw [shift, if_pos hlt]
  · have hnone : m.sessions[other]? = none := List.getElem?_eq_none (by omega)
    have hnone' := (getElem?_shift hplace hother).trans hnone
    rw [stepSession_of_none hnone, stepSession_of_none hnone']

end Moment

end StreamRelay.Bridge
