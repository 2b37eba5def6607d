import RigPack.Rig.Basic
import RigPack.Defect

/-!
# Animations

An animation is baked: it lists a frame for each tick, and a frame names the bones that get a new
transform at that tick, with what else happens then.  A bone that a frame leaves out keeps the
transform it has.
-/

namespace RigPack

/-- What an animation does once its last frame is over. -/
inductive LoopMode
  | loop
  | once
  | hold
  deriving DecidableEq, Inhabited

namespace LoopMode

/-- All modes, in the order of their scores. -/
def all : List LoopMode :=
  [.loop, .once, .hold]

/-- The score by which the game tells the modes apart. -/
def score : LoopMode → Nat
  | .loop => 0
  | .once => 1
  | .hold => 2

/-- The word for a mode in documents and in the names of scores. -/
def word : LoopMode → String
  | .loop => "loop"
  | .once => "once"
  | .hold => "hold"

end LoopMode

/-- Commands that run when a frame is applied. -/
structure FrameCommands where
  /-- The commands as written, one to a line. -/
  text : String
  /-- Conditions under which they run, as written. -/
  condition : Option String
  deriving DecidableEq, Inhabited

/-- A switch to another variant when a frame is applied. -/
structure VariantSwitch where
  variant : String
  /-- Conditions under which the switch happens, as written. -/
  condition : Option String
  deriving DecidableEq, Inhabited

/-- One tick of an animation. -/
structure Frame where
  index : UInt32
  /-- The transforms of the bones that the frame moves, by bone id. -/
  poses : Table Transform
  commands : Option FrameCommands
  switch : Option VariantSwitch
  deriving Inhabited

/-- A baked animation. -/
structure Animation where
  name : String
  /-- The number of ticks. -/
  duration : UInt32
  loopMode : LoopMode
  frames : List Frame
  deriving Inhabited

namespace Animation

/-- The first frame whose number is not its position, with that position. -/
def firstMisplaced? (position : Nat) : List Frame → Option (Nat × Frame)
  | [] => none
  | frame :: frames =>
    if frame.index.toNat = position then firstMisplaced? (position + 1) frames
    else some (position, frame)

/-- Checks that there are as many frames as ticks and that they are numbered from zero on. -/
def checkFrames (animation : Animation) : Except Defect Unit :=
  if animation.frames.length ≠ animation.duration.toNat then
    .error (.frameCountMismatch animation.name animation.frames.length animation.duration.toNat)
  else
    match firstMisplaced? 0 animation.frames with
    | some (position, frame) =>
      .error (.frameIndexMismatch animation.name position frame.index.toNat)
    | none => .ok ()

/-- No frame is misplaced exactly if every frame carries its position. -/
theorem firstMisplaced?_eq_none_iff {start : Nat} {frames : List Frame} :
    firstMisplaced? start frames = none ↔
      ∀ (i : Nat) (h : i < frames.length), frames[i].index.toNat = start + i := by
  induction frames generalizing start with
  | nil => simp [firstMisplaced?]
  | cons frame frames ih =>
    rw [firstMisplaced?]
    split
    · rename_i here
      rw [ih]
      constructor
      · intro later i h
        cases i with
        | zero => simpa using here
        | succ i => simpa [Nat.add_assoc, Nat.add_comm 1] using later i (by simpa using h)
      · intro all i h
        have next := all (i + 1) (by simpa using h)
        rw [List.getElem_cons_succ] at next
        omega
    · rename_i here
      simp only [reduceCtorEq, false_iff]
      intro all
      have first := all 0 (by simp)
      rw [List.getElem_cons_zero] at first
      exact here (by omega)

end Animation

end RigPack
