import RigPack.Animation.Basic

/-!
# Playing an animation

An animation that is played is on or off, and stands at the frame that it applies
next.  The `Player` says how controls and ticks change this, and which frames are
applied, without any functions, tags or scores.

## Main statements

* `Player.frames_play`: an animation that is left alone applies each of its frames
  once, in order, and then does what its loop mode says (`Player.after_play`).
-/

namespace RigPack

/-- What happens to an animation. -/
inductive PlaybackEvent
  | play
  | resume
  | pause
  | stop
  /-- The root ticks. -/
  | tick
  deriving DecidableEq

/-- Whether an animation is played, and the frame at which it stands. -/
structure Player where
  active : Bool
  time : Nat
  deriving DecidableEq

namespace Player

variable (mode : LoopMode) (count : Nat)

/-- A player that goes on to a time; the end comes behind the last of `count` frames. -/
def arrive (time : Nat) : Player :=
  if time < count then ⟨true, time⟩
  else
    match mode with
    | .loop => ⟨true, 0⟩
    | .once => ⟨false, 0⟩
    | .hold => ⟨false, time⟩

/-- The player behind an event. -/
def next (player : Player) : PlaybackEvent → Player
  | .play => ⟨true, 0⟩
  | .resume => ⟨true, player.time⟩
  | .pause => ⟨false, player.time⟩
  | .stop => ⟨false, 0⟩
  | .tick => if player.active then arrive mode count (player.time + 1) else player

/-- The frames that an event applies: at most one. -/
def applied (player : Player) : PlaybackEvent → List Nat
  | .tick => if player.active ∧ player.time < count then [player.time] else []
  | _ => []

/-- The player behind some events. -/
def after (player : Player) (events : List PlaybackEvent) : Player :=
  events.foldl (next mode count) player

/-- The frames that some events apply, in order. -/
def frames (player : Player) : List PlaybackEvent → List Nat
  | [] => []
  | event :: events => player.applied count event ++ frames (player.next mode count event) events

/-! ## Left alone -/

variable {mode count}

theorem next_tick_of_lt {t : Nat} (h : t + 1 < count) :
    next mode count ⟨true, t⟩ .tick = ⟨true, t + 1⟩ :=
  if_pos h

theorem after_ticks {t n : Nat} (h : t + n < count) :
    after mode count ⟨true, t⟩ (.replicate n .tick) = ⟨true, t + n⟩ := by
  induction n generalizing t with
  | zero => rfl
  | succ n ih =>
      have hnext : next mode count ⟨true, t⟩ .tick = ⟨true, t + 1⟩ := next_tick_of_lt (by omega)
      rw [List.replicate_succ, after, List.foldl_cons, hnext]
      exact (ih (by omega)).trans (by rw [Nat.add_right_comm, Nat.add_assoc])

/-- Up to the end every tick applies the frame at which the player stands. -/
theorem frames_ticks {t n : Nat} (h : t + n ≤ count) :
    frames mode count ⟨true, t⟩ (.replicate n .tick) = List.range' t n := by
  induction n generalizing t with
  | zero => rfl
  | succ n ih =>
      have ht : t < count := by omega
      have happlied : applied count ⟨true, t⟩ .tick = [t] := if_pos ⟨rfl, ht⟩
      rw [List.replicate_succ, frames, happlied, List.range'_succ, List.singleton_append]
      -- behind the last tick the player need not be active any more
      cases n with
      | zero => rfl
      | succ n =>
          have hnext : next mode count ⟨true, t⟩ .tick = ⟨true, t + 1⟩ := next_tick_of_lt (by omega)
          rw [hnext, ih (by omega)]

/-- An animation that is played and left alone applies each frame once, in order. -/
theorem frames_play (player : Player) :
    frames mode count player (.play :: .replicate count .tick) = List.range count := by
  rw [List.range_eq_range']
  exact frames_ticks (by omega)

/-- With the last frame an animation that is left alone comes to its end. -/
theorem after_play (player : Player) (hcount : 0 < count) :
    after mode count player (.play :: .replicate count .tick) = arrive mode count count := by
  obtain ⟨n, rfl⟩ := Nat.exists_eq_add_of_le' hcount
  have hbefore : after mode (n + 1) ⟨true, 0⟩ (.replicate n .tick) = ⟨true, 0 + n⟩ :=
    after_ticks (by omega)
  rw [List.replicate_succ', after, List.foldl_cons, List.foldl_append]
  change next mode (n + 1) (after mode (n + 1) ⟨true, 0⟩ (.replicate n .tick)) .tick = _
  rw [hbefore, Nat.zero_add, next, if_pos rfl]

end Player

end RigPack
