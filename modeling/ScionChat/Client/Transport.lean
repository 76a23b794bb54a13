import ScionChat.Client.Error

/-!
# Reading a reply

`read_capped` of the TCP transport, which stops at `MAX_BODY_BYTES`.  A body arrives in chunks,
as the network has it, and reading one comes to the same however it is cut (`readCapped_chunks`).

The loop of the source compares with the cap before it keeps a chunk, so the induction is over the
chunks, with the bytes that have been kept so far in front of it.  Everything that is said
further up about which pages a client can read rests on this one fact: a reply is judged by its
length, and by nothing the network does to it.
-/

namespace ScionChat

/-- The largest reply any transport reads.  It is 8 MiB, whatever the server was configured
with. -/
def MAX_BODY_BYTES : ℕ := 8 * 1024 * 1024

/-- The loop of `read_capped`, from what has been read so far.  The cap is compared with what would
have been read, before a chunk is kept. -/
def readFrom (body : List UInt8) :
    List (Except TransportError (List UInt8)) → Except TransportError (List UInt8)
  | [] => .ok body
  | .error e :: _ => .error e
  | .ok chunk :: rest =>
      if MAX_BODY_BYTES < body.length + chunk.length then .error (.bodyTooLarge MAX_BODY_BYTES)
      else readFrom (body ++ chunk) rest

/-- `read_capped`: reads the body, stopping at `MAX_BODY_BYTES`. -/
def readCapped (reply : List (Except TransportError (List UInt8))) :
    Except TransportError (List UInt8) :=
  readFrom [] reply

theorem readFrom_chunks {body : List UInt8} (fits : body.length ≤ MAX_BODY_BYTES)
    (chunks : List (List UInt8)) :
    readFrom body (chunks.map .ok)
      = if MAX_BODY_BYTES < (body ++ chunks.flatten).length then
          .error (.bodyTooLarge MAX_BODY_BYTES)
        else .ok (body ++ chunks.flatten) := by
  induction chunks generalizing body with
  | nil =>
      rw [List.flatten_nil, List.append_nil, if_neg (not_lt.mpr fits)]
      rfl
  | cons chunk rest ih =>
      rw [List.map_cons, readFrom, List.flatten_cons, ← List.append_assoc]
      by_cases large : MAX_BODY_BYTES < body.length + chunk.length
      · -- what is too long already only grows
        rw [if_pos large, if_pos]
        rw [List.length_append, List.length_append]
        omega
      · rw [if_neg large]
        refine ih ?_
        rw [List.length_append]
        omega

/-- **A body is read whole exactly when it fits**, however it is cut.  One byte more than the cap,
and it is refused, wherever the cap falls within a chunk. -/
theorem readCapped_chunks (chunks : List (List UInt8)) :
    readCapped (chunks.map .ok)
      = if MAX_BODY_BYTES < chunks.flatten.length then .error (.bodyTooLarge MAX_BODY_BYTES)
        else .ok chunks.flatten :=
  readFrom_chunks (Nat.zero_le _) chunks

end ScionChat
