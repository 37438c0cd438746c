import Mathlib.Data.List.Basic

/-!
# One channel between two parties

The protocol that both sides of the bus follow on one channel, over two streams without loss: a
free party offers the channel for a service, the other accepts it if its own end is free, and
either closes it. A party frees a closing end by itself only when no close of its own waits for an
answer.
-/

namespace RtThread.Vbus.Handshake

universe u

variable {N : Type u}

/-- The messages about one channel. -/
inductive Tok (N : Type u) where
  | offer (s : N)
  | accept (s : N)
  | close
  | closed

inductive Mode where
  | free
  | offering
  | opened
  | closing

/-- One end of the channel: its mode, whether its own close waits for an answer, and the
service that opened it last, `true` for the party that offered. -/
structure Party (N : Type u) where
  mode : Mode
  unanswered : Bool
  last : Option (N × Bool)

/-- The moves of a party, on the stream it writes and the stream it reads. -/
inductive Move : Party N -> List (Tok N) -> List (Tok N) ->
    Party N -> List (Tok N) -> List (Tok N) -> Prop where
  | offer {o l p q} (s : N) :
      Move ⟨Mode.free, o, l⟩ p q ⟨Mode.offering, o, l⟩ (p ++ [Tok.offer s]) q
  | close {o l p q} :
      Move ⟨Mode.opened, o, l⟩ p q ⟨Mode.closing, true, l⟩ (p ++ [Tok.close]) q
  | free {l p q} : Move ⟨Mode.closing, false, l⟩ p q ⟨Mode.free, false, l⟩ p q
  | accept {o l p q s} :
      Move ⟨Mode.free, o, l⟩ p (Tok.offer s :: q)
        ⟨Mode.opened, o, some (s, false)⟩ (p ++ [Tok.accept s]) q
  | refuse {x p q s} : Move x p (Tok.offer s :: q) x p q
  | accepted {m o l p q s} :
      Move ⟨m, o, l⟩ p (Tok.accept s :: q) ⟨Mode.opened, o, some (s, true)⟩ p q
  | ignore {x p q s} : Move x p (Tok.accept s :: q) x p q
  | seeClose {m o l p q} :
      Move ⟨m, o, l⟩ p (Tok.close :: q) ⟨Mode.closing, o, l⟩ (p ++ [Tok.closed]) q
  | seeCloseSilent {m o l p q} :
      Move ⟨m, o, l⟩ p (Tok.close :: q) ⟨Mode.closing, o, l⟩ p q
  | seeClosed {m o l p q} :
      Move ⟨m, o, l⟩ p (Tok.closed :: q) ⟨Mode.free, false, l⟩ p q

def Agree (l l' : Option (N × Bool)) : Prop :=
  exists s r, l = some (s, r) ∧ l' = some (s, !r)

/-- The states that a channel passes through, up to the order of the parties. -/
inductive Shape : Party N -> Party N -> List (Tok N) -> List (Tok N) -> Prop where
  | idle {l l'} : Shape ⟨Mode.free, false, l⟩ ⟨Mode.free, false, l'⟩ [] []
  -- an offer, on its way or refused
  | offered {l l' s} :
      Shape ⟨Mode.offering, false, l⟩ ⟨Mode.free, false, l'⟩ [Tok.offer s] []
  | refused {l l'} : Shape ⟨Mode.offering, false, l⟩ ⟨Mode.free, false, l'⟩ [] []
  | crossed {l l' s t} :
      Shape ⟨Mode.offering, false, l⟩ ⟨Mode.offering, false, l'⟩ [Tok.offer s] [Tok.offer t]
  | crossedOne {l l' t} :
      Shape ⟨Mode.offering, false, l⟩ ⟨Mode.offering, false, l'⟩ [] [Tok.offer t]
  | stuck {l l'} : Shape ⟨Mode.offering, false, l⟩ ⟨Mode.offering, false, l'⟩ [] []
  -- an accepted offer, on its way, arrived or dropped
  | accepted {l' s} :
      Shape ⟨Mode.opened, false, some (s, false)⟩ ⟨Mode.offering, false, l'⟩
        [Tok.accept s] []
  | halfOpen {l l'} : Shape ⟨Mode.opened, false, l⟩ ⟨Mode.offering, false, l'⟩ [] []
  | opened {l l'} (h : Agree l l') :
      Shape ⟨Mode.opened, false, l⟩ ⟨Mode.opened, false, l'⟩ [] []
  -- a close on its way
  | closeOpened {l l'} :
      Shape ⟨Mode.opened, false, l⟩ ⟨Mode.closing, true, l'⟩ [] [Tok.close]
  | closeOffering {l l'} :
      Shape ⟨Mode.offering, false, l⟩ ⟨Mode.closing, true, l'⟩ [] [Tok.close]
  | acceptClose {l s} :
      Shape ⟨Mode.offering, false, l⟩ ⟨Mode.closing, true, some (s, false)⟩ []
        [Tok.accept s, Tok.close]
  -- a close that was seen: the answer on its way, arrived or not sent
  | answered {l l'} :
      Shape ⟨Mode.closing, false, l⟩ ⟨Mode.closing, true, l'⟩ [Tok.closed] []
  | unansweredClosing {l l'} :
      Shape ⟨Mode.closing, false, l⟩ ⟨Mode.closing, true, l'⟩ [] []
  | answeredFree {l l'} :
      Shape ⟨Mode.closing, true, l⟩ ⟨Mode.free, false, l'⟩ [] [Tok.closed]
  | unansweredFree {l l'} : Shape ⟨Mode.closing, true, l⟩ ⟨Mode.free, false, l'⟩ [] []
  | answeredOffer {l l' s} :
      Shape ⟨Mode.offering, false, l⟩ ⟨Mode.closing, true, l'⟩ [Tok.closed, Tok.offer s] []
  | unansweredOffer {l l' s} :
      Shape ⟨Mode.offering, false, l⟩ ⟨Mode.closing, true, l'⟩ [Tok.offer s] []
  | unansweredRefused {l l'} :
      Shape ⟨Mode.offering, false, l⟩ ⟨Mode.closing, true, l'⟩ [] []
  | closingFree {l l'} : Shape ⟨Mode.closing, false, l⟩ ⟨Mode.free, false, l'⟩ [] []
  | closingOffer {l l' s} :
      Shape ⟨Mode.offering, false, l⟩ ⟨Mode.closing, false, l'⟩ [Tok.offer s] []
  | closingRefused {l l'} :
      Shape ⟨Mode.offering, false, l⟩ ⟨Mode.closing, false, l'⟩ [] []
  -- both parties close
  | bothClose {l l'} :
      Shape ⟨Mode.closing, true, l⟩ ⟨Mode.closing, true, l'⟩ [Tok.close] [Tok.close]
  | bothCloseAnswered {l l'} :
      Shape ⟨Mode.closing, true, l⟩ ⟨Mode.closing, true, l'⟩ [] [Tok.close, Tok.closed]
  | bothCloseSilent {l l'} :
      Shape ⟨Mode.closing, true, l⟩ ⟨Mode.closing, true, l'⟩ [] [Tok.close]
  | bothAnswered {l l'} :
      Shape ⟨Mode.closing, true, l⟩ ⟨Mode.closing, true, l'⟩ [Tok.closed] [Tok.closed]
  | oneAnswered {l l'} :
      Shape ⟨Mode.closing, true, l⟩ ⟨Mode.closing, true, l'⟩ [] [Tok.closed]
  | noneAnswered {l l'} : Shape ⟨Mode.closing, true, l⟩ ⟨Mode.closing, true, l'⟩ [] []

def Joint (x y : Party N) (p q : List (Tok N)) : Prop :=
  Shape x y p q ∨ Shape y x q p

variable {x x' y : Party N} {p p' q q' : List (Tok N)}

theorem Joint.symm (h : Joint x y p q) : Joint y x q p := Or.symm h

theorem Agree.symm {l l' : Option (N × Bool)} (h : Agree l l') : Agree l' l := by
  obtain ⟨s, r, hl, hl'⟩ := h
  exact ⟨s, !r, hl', by rw [hl, Bool.not_not]⟩

theorem Joint.agree (h : Joint x y p q) (hx : x.mode = Mode.opened) (hy : y.mode = Mode.opened) :
    Agree x.last y.last := by
  rcases h with h | h <;> cases h <;> simp_all
  case inr.opened h => exact h.symm

theorem agree_of_accept (s : N) : Agree (some (s, false)) (some (s, true)) :=
  ⟨s, false, rfl, rfl⟩

theorem Joint.move (h : Joint x y p q) (hmove : Move x p q x' p' q') : Joint x' y p' q' := by
  cases hmove
  case accepted =>
    rcases h with h | h <;> cases h
    case inl.acceptClose => exact Or.inl Shape.closeOpened
    case inr.accepted s => exact Or.inr (Shape.opened (agree_of_accept s))
  all_goals
    rcases h with h | h <;> cases h
    all_goals first
      | exact Or.inl (by constructor)
      | exact Or.inr (by constructor)

end RtThread.Vbus.Handshake
