import Lucidac.Websockets.Session

/-!
# Closing a connection

A peer's close is echoed, the socket is closed, and nothing that comes later has an effect.
-/

namespace Lucidac.Websockets

open Framework
open Framework.Arrival (Carries weight)

def closeCode (data : List (BitVec 8)) : BitVec 16 :=
  BitVec.ofNat 16 (ofWordBytes (data.take 2).reverse)

/-- The reason that is understood from a close message. -/
def understood (data : List (BitVec 8)) : CloseReason :=
  if data.length < 2 then .goingAway else getCloseReason (closeCode data)

/-- The body of the answer to a close: the code of the peer, if it is known. -/
def echo (data : List (BitVec 8)) : List (BitVec 8) :=
  if data.length < 2 then [0x03, 0xE9]
  else if getCloseReason (closeCode data) = .none then [] else data.take 2

theorem value_getCloseReason {code : BitVec 16} (h : getCloseReason code ≠ .none) :
    (getCloseReason code).value = code := by
  revert h
  simp only [getCloseReason]
  split_ifs <;> intro h <;> first | (subst_vars; rfl) | exact absurd rfl h

namespace WebsocketsEndpoint

theorem swap_ofWordBytes {bytes : List (BitVec 8)} (h : bytes.length = 2) :
    BitVec.ofNat 16 (ofWordBytes bytes) >>> 8 ||| BitVec.ofNat 16 (ofWordBytes bytes) <<< 8 =
      BitVec.ofNat 16 (ofWordBytes bytes.reverse) := by
  apply eq_of_wordBytes_eq (by decide : 16 ≤ 8 * 2)
  have hbytes : wordBytes 2 (BitVec.ofNat 16 (ofWordBytes bytes)) = bytes := by
    have hall := wordBytes_ofWordBytes (w := 16) bytes (by omega)
    rwa [h] at hall
  have hreverse : wordBytes 2 (BitVec.ofNat 16 (ofWordBytes bytes.reverse)) = bytes.reverse := by
    have hall := wordBytes_ofWordBytes (w := 16) bytes.reverse (by rw [List.length_reverse]; omega)
    rwa [List.length_reverse, h] at hall
  rw [BitVec.or_comm, wordBytes_swapEndianess16, hbytes, hreverse]

theorem reasonBytes_getCloseReason {data : List (BitVec 8)} (hdata : 2 ≤ data.length)
    (h : getCloseReason (closeCode data) ≠ .none) :
    reasonBytes (getCloseReason (closeCode data)) = data.take 2 := by
  have hlength : (data.take 2).reverse.length = 2 := by
    rw [List.length_reverse, List.length_take]
    omega
  have hbytes := wordBytes_ofWordBytes (w := 16) (data.take 2).reverse (by omega)
  rw [hlength] at hbytes
  rw [reasonBytes, value_getCloseReason h, BitVec.or_comm, wordBytes_swapEndianess16, closeCode,
    hbytes, List.reverse_reverse]

/-- A close is answered with the code of the peer, and the socket is closed. -/
theorem handleMessageInternally_close (data : List (BitVec 8)) (role : MessageRole)
    (e : WebsocketsEndpoint) :
    e.handleMessageInternally ⟨.close, data, role⟩ =
      { e with
        closeReason := understood data
        calls := e.calls ++
          [.send (Websockets.send (echo data) ContentType.close.value true e.useMasking defaultMask),
            .close]
        stopped := true } := by
  have hclose : ∀ reason body, (reason = .none → body = []) →
      (reason ≠ .none → body = reasonBytes reason) →
      e.close reason = { e with
        closeReason := reason
        calls := e.calls ++
          [.send (Websockets.send body ContentType.close.value true e.useMasking defaultMask),
            .close]
        stopped := true } := by
    intro reason body hnone hsome
    rw [close]
    split
    · rename_i heq
      rw [hnone heq, send, List.append_assoc]
      rfl
    · rename_i hne
      rw [hsome hne, send, List.append_assoc]
      rfl
  rw [handleMessageInternally]
  by_cases hlong : 2 ≤ data.length
  · have hshort : ¬ data.length < 2 := Nat.not_lt.mpr hlong
    have hcode : _ = closeCode data := swap_ofWordBytes (List.length_take_of_le hlong)
    have hunderstood : understood data = getCloseReason (closeCode data) := if_neg hshort
    have hecho : echo data = if getCloseReason (closeCode data) = .none then [] else data.take 2 :=
      if_neg hshort
    simp only [if_pos hlong, hcode]
    rw [hunderstood]
    apply hclose
    · intro hnone
      rw [hecho, if_pos hnone]
    · intro hsome
      rw [hecho, if_neg hsome, reasonBytes_getCloseReason hlong hsome]
  · have hshort : data.length < 2 := Nat.not_le.mp hlong
    have hunderstood : understood data = .goingAway := if_pos hshort
    have hecho : echo data = [0x03, 0xE9] := if_pos hshort
    simp only [if_neg hlong]
    rw [hunderstood]
    apply hclose
    · intro hnone
      exact absurd hnone (by decide)
    · intro _
      rw [hecho]
      decide

end WebsocketsEndpoint

namespace WebsocketsClient

variable {σ : Type} {callback : MessageCallback σ}

theorem performAll_append (rs rest : List Reaction) (p : σ × WebsocketsClient) :
    performAll callback (rs ++ rest) p = performAll callback rest (performAll callback rs p) := by
  induction rs generalizing p with
  | nil => rfl
  | cons r rs ih =>
    rw [List.cons_append, performAll, performAll]
    split
    · exact ih _
    · rename_i hclosed
      exact (performAll_deaf (Bool.eq_false_iff.mpr hclosed)).symm

end WebsocketsClient

end Lucidac.Websockets
