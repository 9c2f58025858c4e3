import StreamRelay.Output
import StreamRelay.Proofs.Json.Values
import StreamRelay.Proofs.StreamId.Spelling

/-!
# Messages as lines

In the JSON format a collected message is one line, whatever bytes its body has: the line reads back
as an object that tells the stream, the size, and the text of the body if it has one.
-/

namespace StreamRelay

/-- Bytes have a text exactly if they are its encoding. -/
theorem Bytes.text?_eq_some_iff {b : Bytes} {text : String} :
    b.text? = some text ↔ b = Bytes.ofText text := by
  unfold Bytes.text? String.fromUTF8? Bytes.ofText
  constructor
  · intro h
    split at h
    · cases h
      rfl
    · contradiction
  · rintro rfl
    have hvalid : (⟨text.toUTF8.data.toList.toArray⟩ : ByteArray).IsValidUTF8 := by
      rw [Array.toArray_toList]
      exact text.isValidUTF8
    rw [dif_pos hvalid]
    rfl

namespace Output

theorem preview_ofText (text : String) : preview (Bytes.ofText text) = text := by
  rw [preview, Bytes.text?_eq_some_iff.mpr rfl]
  rfl

theorem preview_of_no_text {body : Bytes} (h : ∀ text, body ≠ Bytes.ofText text) :
    preview body = s!"<binary {body.length} bytes>" := by
  have hnone : body.text? = none := by
    apply Option.eq_none_iff_forall_ne_some.mpr
    intro text htext
    exact h text (Bytes.text?_eq_some_iff.mp htext)
  rw [preview, hnone]
  rfl

namespace Received

open Json (Value)

theorem readable_toJson {r : Received} (hsize : r.message.body.length < Text.wordSize) :
    Value.Readable Value.maxDepth r.toJson := by
  apply Value.Readable.object
  intro m hm
  simp only [List.mem_cons, List.not_mem_nil, or_false] at hm
  rcases hm with rfl | rfl | rfl | rfl | rfl
  · exact .string _
  · exact .word hsize
  · exact .string _
  · exact .string _
  · exact .string _

/-- In the JSON format a message is printed as one line without control characters. The line is JSON,
and reads as an object that names the stream, tells the size of the body, and holds its text, or its
size once more if it has no text. The size of a body is a word. -/
theorem print_json_reads (r : Received) (hsize : r.message.body.length < 2 ^ 64) :
    ∃ line id payload, r.print .json = Bytes.ofText (line ++ "\n") ∧
      (∀ c ∈ line.toList, 0x20 ≤ c.toNat) ∧ Json.IsValue line.toList ∧
      Value.ofText line = .ok (.object [("stream_id", .string id),
        ("size", .nat r.message.body.length), ("payload", .string payload),
        ("from", .string (toString r.source)), ("timestamp", .string (toString r.time))]) ∧
      StreamId.ofText id = .ok r.message.stream ∧
      (∀ text, r.message.body = Bytes.ofText text → payload = text) ∧
      ((∀ text, r.message.body ≠ Bytes.ofText text) →
        payload = s!"<binary {r.message.body.length} bytes>") := by
  have hreadable := readable_toJson hsize
  refine ⟨r.toJson.render, toString r.message.stream, preview r.message.body, rfl, ?_, ?_,
    hreadable.ofText_render, ?_, ?_, preview_of_no_text⟩
  · intro c hc
    rw [Value.render, String.toList_ofList] at hc
    simpa [Json.isControl] using hreadable.printable c hc
  · rw [Value.render, String.toList_ofList]
    exact hreadable.isValue
  · exact StreamId.ofText_eq_ok_iff.mpr (StreamId.spells_toString r.message.stream)
  · intro text htext
    rw [htext, preview_ofText]

/-- A body that would end the line and forge another one. -/
def forging : Received where
  message := ⟨.nil, Bytes.ofText "\"\x7d\n\x7b\"size\":0\x1f\\"⟩
  source := .v4 (Ipv4.of 127 0 0 1) 20788
  time := 0

theorem print_json_reads_forging :
    forging.message.body.length < 2 ^ 64 ∧ ∃ line id,
      forging.print .json = Bytes.ofText (line ++ "\n") ∧ (∀ c ∈ line.toList, 0x20 ≤ c.toNat) ∧
      Json.IsValue line.toList ∧
      Value.ofText line = .ok (.object [("stream_id", .string id), ("size", .nat 14),
        ("payload", .string "\"\x7d\n\x7b\"size\":0\x1f\\"), ("from", .string "127.0.0.1:20788"),
        ("timestamp", .string "0")]) := by
  have hlength : forging.message.body.length = 14 := by decide +kernel
  have hsize : forging.message.body.length < 2 ^ 64 := by omega
  have hsource : toString forging.source = "127.0.0.1:20788" := by decide +kernel
  obtain ⟨line, id, payload, hline, hplain, hvalue, hread, _, htext, _⟩ :=
    print_json_reads forging hsize
  rw [htext _ rfl, hlength, hsource] at hread
  exact ⟨hsize, line, id, hline, hplain, hvalue, hread⟩

end Received

end Output

end StreamRelay
