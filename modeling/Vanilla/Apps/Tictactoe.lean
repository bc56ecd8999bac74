import Mathlib.Data.List.Perm.Subperm
import Mathlib.Logic.Function.Basic

namespace Vanilla.Apps

/-! game.c of the tictactoe application: whatever is typed, the game that is played. -/

/-- `SIZE` -/
def boardSize : Nat := 3

structure Game where
  board : Nat → UInt8
  turn : UInt8
  waitingMove : Bool
  winner : UInt8

/-! ## game.c -/

/-- One of the inner loops of `check_winner`, with so many places left. -/
def checkFrom (board : Nat → UInt8) (winner : UInt8) (step : Nat) : Nat → Nat → UInt8
  | 0, _ => winner
  | left + 1, place =>
      if board place ≠ winner then 0 else checkFrom board winner step left (place + step)

def checkLine (board : Nat → UInt8) (line : Nat × Nat) : UInt8 :=
  checkFrom board (board line.1) line.2 boardSize line.1

/-- Where the rows, the columns and the diagonals start, and the way to their next place. -/
def lines (size : Nat) : List (Nat × Nat) :=
  (List.range size).map (fun i => (i * boardSize, 1)) ++
    (List.range size).map (fun i => (i, boardSize)) ++ [(0, boardSize + 1),
      (boardSize - 1, boardSize - 1)]

def firstWinner (board : Nat → UInt8) : List (Nat × Nat) → UInt8
  | [] => 0
  | line :: later =>
      let winner := checkLine board line
      if winner ≠ 0 then winner else firstWinner board later

def checkWinner (board : Nat → UInt8) (size : Nat) : UInt8 := firstWinner board (lines size)

/-- The two characters are a column and a row; the differences are of type `u8`. -/
def addPiece (first second piece : UInt8) (board : Nat → UInt8) : Option (Nat → UInt8) :=
  let xPos := (first - 48 - 1).toNat
  let yPos := (second - 48 - 1).toNat
  if boardSize ≤ xPos ∨ boardSize ≤ yPos then none
  else if board (boardSize * yPos + xPos) = 0 then
    some (Function.update board (boardSize * yPos + xPos) piece)
  else none

def gameInit : Game := ⟨fun _ => 0, 1, false, 0⟩

/-- What `syscall_read_print` returns, with the first two characters that it stores. -/
structure Typed where
  status : Nat
  first : UInt8
  second : UInt8

/-- The next player is asked for a move. -/
def askPlayer (game : Game) : Game :=
  if game.waitingMove then game
  else { game with turn := if game.turn = 1 then 2 else 1, waitingMove := true }

/-- One round of `game_loop`. -/
def gameRound (typed : Typed) (game : Game) : Game :=
  let asked := askPlayer game
  if typed.status = 2 then
    match addPiece typed.first typed.second asked.turn asked.board with
    | some board => { asked with
        board := board
        winner := checkWinner board boardSize
        waitingMove := false }
    | none => asked
  else asked

/-- `game_loop` on what is typed, until there is a winner or nothing more is typed. -/
def gameLoop : List Typed → Game → Game
  | [], game => game
  | typed :: later, game =>
      let next := gameRound typed game
      if next.winner = 0 then gameLoop later next else next

/-! ## The game -/

/-- The second player of the source makes the first move. -/
def mover (turns : Nat) : UInt8 := if turns % 2 = 0 then 2 else 1

/-- The board after these moves, the last one first. -/
def boardAfter : List Nat → Nat → UInt8
  | [] => fun _ => 0
  | place :: earlier => Function.update (boardAfter earlier) place (mover earlier.length)

/-- The places of a line have this piece. -/
def FullLine (board : Nat → UInt8) (line : Nat × Nat) (piece : UInt8) : Prop :=
  board line.1 = piece ∧ board (line.1 + line.2) = piece ∧ board (line.1 + line.2 + line.2) = piece

/-- The player has a row, a column or a diagonal. -/
def Wins (board : Nat → UInt8) (piece : UInt8) : Prop :=
  ∃ line ∈ lines boardSize, FullLine board line piece

/-- A game that has been played by the rules so far. -/
structure Played (moves : List Nat) (game : Game) : Prop where
  board : game.board = boardAfter moves
  distinct : moves.Nodup
  inside : ∀ place ∈ moves, place < boardSize * boardSize
  asked : game.waitingMove = true → game.turn = mover moves.length
  answered : game.waitingMove = false → game.turn = mover (moves.length + 1)
  undecided : game.winner = 0 → ∀ piece ≠ 0, ¬ Wins (boardAfter moves) piece
  decided : game.winner ≠ 0 → game.winner = game.turn ∧ Wins (boardAfter moves) game.turn ∧
    ∀ piece ≠ 0, ¬ Wins (boardAfter moves.tail) piece

variable {board : Nat → UInt8} {line : Nat × Nat} {piece other : UInt8} {place : Nat}
  {moves : List Nat} {game : Game}

/-! ## Lines -/

theorem checkLine_eq_iff (nonzero : piece ≠ 0) :
    checkLine board line = piece ↔ FullLine board line piece := by
  rw [checkLine, boardSize, checkFrom, checkFrom, checkFrom, checkFrom, if_neg (not_not.mpr rfl)]
  by_cases second : board (line.1 + line.2) = board line.1
  · rw [if_neg (not_not.mpr second)]
    by_cases third : board (line.1 + line.2 + line.2) = board line.1
    · rw [if_neg (not_not.mpr third)]
      exact ⟨fun same => ⟨same, second.trans same, third.trans same⟩, fun full => full.1⟩
    · rw [if_pos third]
      exact ⟨fun zero => absurd zero.symm nonzero,
        fun full => absurd (full.2.2.trans full.1.symm) third⟩
  · rw [if_pos second]
    exact ⟨fun zero => absurd zero.symm nonzero,
      fun full => absurd (full.2.1.trans full.1.symm) second⟩

theorem firstWinner_eq_zero : ∀ {remaining : List (Nat × Nat)}, firstWinner board remaining = 0 →
    ∀ line ∈ remaining, checkLine board line = 0
  | [], _ => nofun
  | first :: later, empty => by
      unfold firstWinner at empty
      dsimp only at empty
      split at empty
      · rename_i found
        exact absurd empty found
      · rename_i here
        intro line member
        rcases List.mem_cons.mp member with rfl | member
        · exact not_not.mp here
        · exact firstWinner_eq_zero empty line member

theorem firstWinner_ne_zero : ∀ {remaining : List (Nat × Nat)}, firstWinner board remaining ≠ 0 →
    ∃ line ∈ remaining, checkLine board line = firstWinner board remaining
  | [], found => absurd rfl found
  | first :: later, found => by
      unfold firstWinner at found ⊢
      dsimp only at found ⊢
      split at found
      · rename_i here
        rw [if_pos here]
        exact ⟨first, List.mem_cons_self, rfl⟩
      · rename_i empty
        rw [if_neg empty]
        rcases firstWinner_ne_zero found with ⟨line, member, same⟩
        exact ⟨line, List.mem_cons_of_mem _ member, same⟩

theorem checkWinner_eq_zero (empty : checkWinner board boardSize = 0) (nonzero : piece ≠ 0) :
    ¬ Wins board piece := by
  rintro ⟨line, member, full⟩
  have found := (checkLine_eq_iff nonzero).mpr full
  exact nonzero (found.symm.trans (firstWinner_eq_zero empty line member))

theorem checkWinner_ne_zero (found : checkWinner board boardSize ≠ 0) :
    Wins board (checkWinner board boardSize) := by
  rcases firstWinner_ne_zero found with ⟨line, member, same⟩
  exact ⟨line, member, (checkLine_eq_iff found).mp same⟩

theorem board_of_update {cell : Nat} (same : Function.update board place piece cell = other)
    (differs : other ≠ piece) : board cell = other := by
  by_cases here : cell = place
  · rw [here, Function.update_self] at same
    exact absurd same.symm differs
  · rwa [Function.update_of_ne here] at same

/-- A move completes lines of its own piece only. -/
theorem wins_update (wins : Wins (Function.update board place piece) other)
    (before : ¬ Wins board other) : other = piece := by
  by_contra differs
  rcases wins with ⟨line, member, first, second, third⟩
  exact before ⟨line, member, board_of_update first differs, board_of_update second differs,
    board_of_update third differs⟩

/-! ## Moves -/

theorem mover_ne_zero (turns : Nat) : mover turns ≠ 0 := by
  rw [mover]
  split
  · decide
  · decide

theorem mover_add_two (turns : Nat) : mover (turns + 1 + 1) = mover turns := by
  rw [mover, mover, show turns + 1 + 1 = turns + 2 from rfl, Nat.add_mod_right]

theorem mover_other (turns : Nat) : (if mover (turns + 1) = 1 then 2 else 1) = mover turns := by
  rw [mover, mover]
  rcases Nat.mod_two_eq_zero_or_one turns with even | odd
  · have next : (turns + 1) % 2 = 1 := by omega
    simp [even, next]
  · have next : (turns + 1) % 2 = 0 := by omega
    simp [odd, next]

theorem boardAfter_eq_zero_iff : ∀ {moves : List Nat}, boardAfter moves place = 0 ↔ place ∉ moves
  | [] => by simp [boardAfter]
  | last :: earlier => by
      rw [boardAfter, List.mem_cons, not_or]
      by_cases here : place = last
      · rw [here, Function.update_self]
        exact ⟨fun zero => absurd zero (mover_ne_zero _), fun apart => absurd rfl apart.1⟩
      · rw [Function.update_of_ne here, boardAfter_eq_zero_iff]
        exact ⟨fun absent => ⟨here, absent⟩, fun apart => apart.2⟩

theorem addPiece_eq_some {first second : UInt8} {after : Nat → UInt8}
    (added : addPiece first second piece board = some after) :
    ∃ place < boardSize * boardSize, board place = 0 ∧
      after = Function.update board place piece := by
  unfold addPiece at added
  dsimp only at added
  split at added
  · cases added
  · rename_i inside
    split at added
    · rename_i free
      cases added
      rw [not_or, Nat.not_le, Nat.not_le, boardSize] at inside
      exact ⟨_, by rw [boardSize]; omega, free, rfl⟩
    · cases added

/-! ## Rounds -/

theorem Played.init : Played [] gameInit where
  board := rfl
  distinct := List.nodup_nil
  inside := nofun
  asked := nofun
  answered _ := rfl
  undecided _ piece nonzero := by
    rintro ⟨line, _, zero, _⟩
    exact nonzero zero.symm
  decided decided := absurd rfl decided

theorem Played.askPlayer (played : Played moves game) (undecided : game.winner = 0) :
    Played moves (askPlayer game) ∧ (askPlayer game).waitingMove = true ∧
      (askPlayer game).winner = 0 := by
  rw [Apps.askPlayer]
  split
  · rename_i waits
    exact ⟨played, waits, undecided⟩
  · rename_i answered
    refine ⟨?_, rfl, undecided⟩
    have last := played.answered (Bool.eq_false_iff.mpr answered)
    refine ⟨played.board, played.distinct, played.inside, fun _ => ?_, nofun, played.undecided,
      fun decided => absurd undecided decided⟩
    change (if game.turn = 1 then 2 else 1) = mover moves.length
    rw [last]
    exact mover_other _

/-- An accepted move is on a free place, by the player whose turn it is. -/
theorem Played.move (played : Played moves game) (waits : game.waitingMove = true)
    (undecided : game.winner = 0) (inside : place < boardSize * boardSize)
    (free : game.board place = 0) :
    Played (place :: moves)
      { game with
        board := Function.update game.board place game.turn
        winner := checkWinner (Function.update game.board place game.turn) boardSize
        waitingMove := false } := by
  have turn := played.asked waits
  have board : Function.update game.board place game.turn = boardAfter (place :: moves) := by
    rw [boardAfter, turn, played.board]
  have absent : place ∉ moves := boardAfter_eq_zero_iff.mp (played.board ▸ free)
  have before := played.undecided undecided
  constructor
  · exact board
  · exact List.nodup_cons.mpr ⟨absent, played.distinct⟩
  · intro other member
    rcases List.mem_cons.mp member with rfl | member
    · exact inside
    · exact played.inside other member
  · exact nofun
  · exact fun _ => turn.trans (mover_add_two _).symm
  · intro empty piece nonzero
    rw [← board]
    exact checkWinner_eq_zero empty nonzero
  · intro found
    have wins := checkWinner_ne_zero found
    have own : checkWinner (Function.update game.board place game.turn) boardSize = game.turn := by
      apply wins_update wins
      rw [played.board] at found ⊢
      exact before _ found
    rw [own, board] at wins
    exact ⟨own, wins, before⟩

theorem Played.round (played : Played moves game) (undecided : game.winner = 0) (typed : Typed) :
    ∃ more, Played more (gameRound typed game) := by
  rcases played.askPlayer undecided with ⟨asked, waits, open'⟩
  rw [gameRound]
  split
  · split
    · rename_i board added
      rcases addPiece_eq_some added with ⟨place, inside, free, rfl⟩
      exact ⟨_, asked.move waits open' inside free⟩
    · exact ⟨moves, asked⟩
  · exact ⟨moves, asked⟩

theorem Played.loop : ∀ {inputs : List Typed} {moves : List Nat} {game : Game},
    Played moves game → game.winner = 0 → ∃ more, Played more (gameLoop inputs game)
  | [], moves, _, played, _ => ⟨moves, played⟩
  | typed :: later, _, game, played, undecided => by
      rcases played.round undecided typed with ⟨more, next⟩
      rw [gameLoop]
      split
      · rename_i still
        exact next.loop still
      · exact ⟨more, next⟩

end Vanilla.Apps
