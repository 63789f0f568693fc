import Lucidac.Websockets.Client
import Lucidac.Websockets.Wire
import Mathlib.Data.Fin.VecNotation

/-!
# From the stream to the frames

The client sees the frames of its peer one after the other, in whatever pieces the stream arrives
and whenever it is polled.
-/

namespace Lucidac.Websockets

open Framework
open Framework.Arrival (Carries weight)

namespace WebsocketsClient

variable {σ : Type} {callback : MessageCallback σ} {junk : Nat → Junk}

theorem available_and_hasData (c : WebsocketsClient) (s : List (Arrival (BitVec 8))) :
    (c.available && c.hasData s) = (c.listening && ready s) :=
  (Bool.and_assoc _ _ _).symm

theorem handleFrames_deaf {frames : List WebsocketsFrame} {p : σ × WebsocketsClient}
    (hp : p.2.listening = false) : handleFrames callback frames p = .ok p := by
  cases frames with
  | nil => rfl
  | cons frame frames => rw [handleFrames, hp, if_neg Bool.false_ne_true]

theorem pollLoop_stops {fuel : Nat} {p : σ × WebsocketsClient} {s : List (Arrival (BitVec 8))}
    (h : p.2.listening = false ∨ ready s = false) :
    pollLoop junk callback fuel p s = .ok (p, s) := by
  cases fuel with
  | zero => rfl
  | succ fuel =>
    rw [pollLoop, available_and_hasData, if_neg]
    rw [Bool.and_eq_true]
    rintro ⟨hopen, hready⟩
    rcases h with h | h
    · rw [h] at hopen; cases hopen
    · rw [h] at hready; cases hready

/-- A poll handles frames until there are none at the moment or nobody listens any more. -/
theorem pollLoop_carries (j : Junk) {frames : List PeerFrame} {s : List (Arrival (BitVec 8))}
    (p : σ × WebsocketsClient) {fuel : Nat} (hfuel : weight s ≤ fuel)
    (h : Carries (frames.flatMap PeerFrame.atoms) s) :
    (∃ stuck, pollLoop junk callback fuel p s = .error stuck ∧
      handleFrames callback (frames.map (·.received j)) p = .error stuck) ∨
    ∃ p' s', ∃ left : List PeerFrame, pollLoop junk callback fuel p s = .ok (p', s') ∧
      handleFrames callback (frames.map (·.received j)) p =
        handleFrames callback (left.map (·.received j)) p' ∧
      Carries (left.flatMap PeerFrame.atoms) s' ∧ weight s' ≤ weight s ∧
      (p'.2.listening = false ∨ ready s' = false) := by
  induction fuel generalizing frames s p with
  | zero =>
    refine .inr ⟨p, s, frames, rfl, rfl, h, Nat.le_refl _, .inr ?_⟩
    cases s with
    | nil => rfl
    | cons arrival s => cases arrival <;> (rw [weight] at hfuel; omega)
  | succ fuel ih =>
    by_cases hgo : p.2.listening = false ∨ ready s = false
    · exact .inr ⟨p, s, frames, pollLoop_stops hgo, rfl, h, Nat.le_refl _, hgo⟩
    · obtain ⟨hopen, hready⟩ := not_or.mp hgo
      rw [Bool.not_eq_false] at hopen hready
      obtain ⟨byte, bytes, s0, rfl⟩ := exists_of_ready hready
      cases frames with
      | nil => exact absurd h Arrival.Carries.not_data_cons
      | cons f frames =>
        obtain ⟨s', hrecv, hrest, hless⟩ := recvFrame_of_carries (junk fuel) f h
        have hloop : pollLoop junk callback (fuel + 1) p (.data (byte :: bytes) :: s0) =
            (handleFrame callback (f.received j) p).bind
              fun p => pollLoop junk callback fuel p s' := by
          rw [pollLoop, available_and_hasData, hopen, hready, Bool.and_self, if_pos rfl, hrecv]
          rfl
        have hframes : handleFrames callback ((f :: frames).map (·.received j)) p =
            (handleFrame callback (f.received j) p).bind
              (handleFrames callback (frames.map (·.received j))) := by
          rw [List.map_cons, handleFrames, hopen, if_pos rfl]
          rfl
        rw [hloop, hframes]
        cases hframe : handleFrame callback (f.received j) p with
        | error stuck => exact .inl ⟨stuck, rfl, rfl⟩
        | ok next =>
          rcases ih next (by omega) hrest with hstuck | ⟨p', s'', left, hp, hf, hc, hw, hend⟩
          · exact .inl hstuck
          · exact .inr ⟨p', s'', left, hp, hf, hc, by omega, hend⟩

theorem Carries.tick {atoms : List (List (BitVec 8))} {s : List (Arrival (BitVec 8))}
    (h : Carries atoms s) : Carries atoms (tick s) := by
  match s with
  | [] => exact h
  | .failed :: s => exact h.of_failed
  | .data [] :: s => exact h.of_data_nil
  | .data (_ :: _) :: _ => exact h

theorem weight_tick_le {rounds : Nat} {s : List (Arrival (BitVec 8))} (hs : weight s ≤ rounds + 1)
    (hready : ready s = false) : weight (tick s) ≤ rounds := by
  match s, hready with
  | [], _ => exact Nat.zero_le _
  | .failed :: s, _ => exact Nat.le_of_succ_le_succ hs
  | .data [] :: s, _ => rw [weight, List.length_nil] at hs; rw [tick]; omega

theorem pollRounds_deaf {rounds : Nat} {p : σ × WebsocketsClient}
    {s : List (Arrival (BitVec 8))} (hp : p.2.listening = false) :
    pollRounds junk callback rounds p s = .ok p := by
  induction rounds generalizing s with
  | zero => rfl
  | succ rounds ih =>
    rw [pollRounds, poll, pollLoop_stops (.inl hp)]
    exact ih

/-- The client handles the frames of its peer one after the other, in whatever pieces they arrive
and whatever its local variables hold, when it is polled often enough. -/
theorem pollRounds_eq (j : Junk) {frames : List PeerFrame} {s : List (Arrival (BitVec 8))}
    (h : Carries (frames.flatMap PeerFrame.atoms) s) {rounds : Nat} (hrounds : weight s ≤ rounds)
    (p : σ × WebsocketsClient) :
    pollRounds junk callback rounds p s = handleFrames callback (frames.map (·.received j)) p := by
  induction rounds generalizing frames s p with
  | zero =>
    have hs : s = [] := by
      cases s with
      | nil => rfl
      | cons arrival s => cases arrival <;> (rw [weight] at hrounds; omega)
    have hframes : frames = [] := by
      cases frames with
      | nil => rfl
      | cons f frames => rw [hs] at h; cases h.atoms_of_nil
    rw [hframes]
    rfl
  | succ rounds ih =>
    rw [pollRounds, poll]
    rcases pollLoop_carries j p (Nat.le_refl _) h with
      ⟨stuck, hloop, hframes⟩ | ⟨p', s', left, hloop, hframes, hleft, hless, hend⟩
    · rw [hloop, hframes]
      rfl
    · rw [hloop, hframes]
      rcases hend with hclosed | hready
      · rw [handleFrames_deaf hclosed]
        exact pollRounds_deaf hclosed
      · exact ih (Carries.tick hleft) (weight_tick_le (by omega) hready) p'

/-- It makes no difference in which pieces the frames of the peer arrive, when the client is polled
and what its local variables hold. -/
theorem pollRounds_eq_pollRounds {frames : List PeerFrame} {s t : List (Arrival (BitVec 8))}
    (hs : Carries (frames.flatMap PeerFrame.atoms) s)
    (ht : Carries (frames.flatMap PeerFrame.atoms) t) {rounds rounds' : Nat}
    (hrounds : weight s ≤ rounds) (hrounds' : weight t ≤ rounds') (junk junk' : Nat → Junk)
    (p : σ × WebsocketsClient) :
    pollRounds junk callback rounds p s = pollRounds junk' callback rounds' p t := by
  rw [pollRounds_eq (junk 0) hs hrounds, pollRounds_eq (junk 0) ht hrounds']

/-- A masked text in one piece, and with a failed read and a pause in front of its last byte. -/
theorem pollRounds_eq_pollRounds_example :
    pollRounds (fun _ => ⟨⟨0, 0, false, 0, false⟩, fun _ => 0⟩) (fun _ p => p) 10 ((), .new)
        [.data [0x81, 0x82, 1, 2, 3, 4, 0x49, 0x6B]] =
      pollRounds (fun _ => ⟨⟨1, 1, true, 1, true⟩, fun _ => 1⟩) (fun _ p => p) 20 ((), .new)
        [.data [0x81, 0x82, 1, 2, 3, 4, 0x49], .failed, .data [], .data [0x6B]] := by
  let key : Fin 4 → BitVec 8 := ![1, 2, 3, 4]
  let f : PeerFrame := ⟨true, 0, 1, some key, .short, [0x48, 0x69],
    show 2 < 126 by decide⟩
  have hatoms : [f].flatMap PeerFrame.atoms =
      [[0x81, 0x82, 1, 2, 3, 4], [0x49], [0x6B]] := by decide
  have hwhole : Carries ([f].flatMap PeerFrame.atoms)
      [.data [0x81, 0x82, 1, 2, 3, 4, 0x49, 0x6B]] := by
    rw [hatoms]
    exact .piece [[0x81, 0x82, 1, 2, 3, 4], [0x49], [0x6B]] (by decide) .done
  have hcut : Carries ([f].flatMap PeerFrame.atoms)
      [.data [0x81, 0x82, 1, 2, 3, 4, 0x49], .failed, .data [], .data [0x6B]] := by
    rw [hatoms]
    exact .piece [[0x81, 0x82, 1, 2, 3, 4], [0x49]] (by decide)
      (.failed (.piece [] (by decide) (.piece [[0x6B]] (by decide) .done)))
  exact pollRounds_eq_pollRounds hwhole hcut (by decide) (by decide) _ _ _

end WebsocketsClient

end Lucidac.Websockets
