import ScionChat.Core.V1
import ScionChat.Lib.Json

/-!
# Messages as JSON

What `serde_json` makes of the types of `api/v1/messages.rs`: an object with the fields in the
order they are declared in, and newtypes as what they wrap.

Here the JSON is measured and not read: `Message.size_json` and its like give the length of each
body as a sum over its fields, and `MessagesResponse.size_json_le` and `le_size_json` bound a page
from above and from below.  A bound on a page is exact only if both of them are, so the texts are
measured as serde_json escapes them, character by character, and the numbers by their digits.
How bodies are read back is in `Serde`, where the reader is a parameter.
-/

namespace ScionChat

open Json

/-- A `Message`. -/
def Message.json (message : Message) : List Char :=
  object [("seq", number message.seq.get), ("username", string message.username),
    ("body", string message.body), ("posted_at", number message.postedAt.get)]

/-- A `MessagesResponse`. -/
def MessagesResponse.json (response : MessagesResponse) : List Char :=
  object [("messages", array (response.messages.map Message.json))]

/-- A `PostMessageRequest`. -/
def PostMessageRequest.json (request : PostMessageRequest) : List Char :=
  object [("body", string request.body)]

theorem Message.size_json (message : Message) :
    size message.json = 41 + size (number message.seq.get) + size (string message.username)
      + size (string message.body) + size (number message.postedAt.get) := by
  have keys : size (string "seq") = 5 ∧ size (string "username") = 10 ∧
      size (string "body") = 6 ∧ size (string "posted_at") = 11 := by decide +kernel
  obtain ⟨seq, username, body, postedAt⟩ := keys
  unfold json
  rw [size_object]
  simp only [List.map_cons, List.map_nil, List.sum_cons, List.sum_nil, sizeField, seq, username,
    body, postedAt, List.length_cons, List.length_nil]
  omega

theorem MessagesResponse.size_json (response : MessagesResponse) :
    size response.json = 15 + (response.messages.map fun m => size m.json).sum
      + (response.messages.length - 1) := by
  have key : size (string "messages") = 10 := by decide +kernel
  unfold json
  rw [size_object]
  simp only [List.map_cons, List.map_nil, List.sum_cons, List.sum_nil, sizeField, key, size_array,
    List.map_map, List.length_map, List.length_cons, List.length_nil]
  show 2 + (10 + 1 + (2 + (response.messages.map fun m => size m.json).sum
    + (response.messages.length - 1)) + 0) + (0 + 1 - 1) = _
  omega

/-- A page takes at most what its messages may take, and a comma each. -/
theorem MessagesResponse.size_json_le {response : MessagesResponse} {k : ℕ}
    (each : ∀ m ∈ response.messages, size m.json ≤ k) :
    size response.json ≤ 15 + response.messages.length * (k + 1) := by
  have all := List.sum_le_card_nsmul (response.messages.map fun m => size m.json) k fun n mem => by
    obtain ⟨m, there, rfl⟩ := List.mem_map.mp mem
    exact each m there
  rw [List.length_map, smul_eq_mul] at all
  rw [size_json, Nat.mul_add, Nat.mul_one]
  omega

/-- And at least what each of them takes. -/
theorem MessagesResponse.le_size_json {response : MessagesResponse} {k : ℕ}
    (each : ∀ m ∈ response.messages, k ≤ size m.json) :
    15 + response.messages.length * k + (response.messages.length - 1) ≤ size response.json := by
  have all := List.card_nsmul_le_sum (response.messages.map fun m => size m.json) k fun n mem => by
    obtain ⟨m, there, rfl⟩ := List.mem_map.mp mem
    exact each m there
  rw [List.length_map, smul_eq_mul] at all
  rw [size_json]
  omega

theorem PostMessageRequest.size_json (request : PostMessageRequest) :
    size request.json = 9 + size (string request.body) := by
  have key : size (string "body") = 6 := by decide +kernel
  unfold json
  rw [size_object]
  simp only [List.map_cons, List.map_nil, List.sum_cons, List.sum_nil, sizeField, key,
    List.length_cons, List.length_nil]
  omega

end ScionChat
