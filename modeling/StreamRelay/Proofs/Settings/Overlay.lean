import StreamRelay.Proofs.Json.Defaults
import StreamRelay.Proofs.Json.Records
import StreamRelay.Proofs.Net.Address
import StreamRelay.Settings

/-!
# Settings are read over their defaults

A settings text names some of the settings and of the region's, in any order and with any blanks,
and may have members that nobody knows. What it names is read as it is written, and everything else
keeps its default. A text that names all settings is read back as them.
-/

namespace StreamRelay
open Json

namespace Region.Config

structure IsSized (c : Config) : Prop where
  size : c.size < Text.wordSize
  slotSize : c.slotSize < Text.wordSize
  ringCapacity : c.ringCapacity < Text.wordSize

def overlay (base c : Config) (keys : List String) : Config where
  name := if "region_name" ∈ keys then c.name else base.name
  size := if "region_size" ∈ keys then c.size else base.size
  slotSize := if "slot_size" ∈ keys then c.slotSize else base.slotSize
  ringCapacity := if "ring_capacity" ∈ keys then c.ringCapacity else base.ringCapacity

variable {base c : Config}

theorem overlay_unknown {key : String} (hkey : key ∉ fields.map (·.key)) (keys : List String) :
    overlay base c (keys ++ [key]) = overlay base c keys := by
  simp only [fields, Field.of, List.map_cons, List.map_nil, List.mem_cons, List.not_mem_nil,
    or_false, not_or] at hkey
  simp [overlay, hkey, eq_comm]

theorem overlay_texts (base c : Config) : overlay base c (c.toJson.texts.map (·.1)) = c := by
  simp [overlay, toJson, Value.texts, Value.members]

theorem takes (hc : c.IsSized) : ∀ m ∈ c.toJson.texts, Takes fields (overlay base c) m.1 m.2 := by
  simp only [Value.texts, toJson, Value.members, List.map_cons, List.map_nil, List.forall_mem_cons]
  refine ⟨?_, ?_, ?_, ?_, by simp⟩
  · exact .string rfl fun keys => by simp [overlay]
  · exact .nat hc.size rfl fun keys => by simp [overlay]
  · exact .nat hc.slotSize rfl fun keys => by simp [overlay]
  · exact .nat hc.ringCapacity rfl fun keys => by simp [overlay]

/-- A region is read over another one. -/
theorem record_overlay (hc : c.IsSized) {inner : List (String × List Char)}
    (hinner : Excerpt c.toJson.texts inner) {s front rest : List Char} (hs : IsObject inner s)
    (hf : Blank front) :
    Json.record fields base (front ++ (s ++ rest)) = .ok (overlay base c (inner.map (·.1)), rest) := by
  have hnone : overlay base c [] = base := by simp [overlay]
  nth_rewrite 1 [← hnone]
  exact record_append rfl (takes hc) (fun _ => overlay_unknown) hinner hs hf rest

end Region.Config

theorem SocketAddress.ofText?_toString (a : SocketAddress) :
    SocketAddress.ofText? (toString a).toList = some a := by
  have htext : (toString a).toList = a.text := String.toList_ofList
  rw [htext, SocketAddress.ofText?_text]

theorem Trailing.lookup_name (t : Trailing) :
    List.lookup t.name [(Trailing.name .reject, Trailing.reject),
      (Trailing.name .carryOver, .carryOver)] = some t := by
  cases t <;> rfl

namespace Settings

def varied (base : Settings) (f : Json.Field Settings) : Json.Field Settings :=
  if f.key = "io" then
    .of "io" (Json.record Region.Config.fields base.region) fun v s => { s with region := v }
  else f

theorem varied_key (base : Settings) (f : Json.Field Settings) : (varied base f).key = f.key := by
  unfold varied
  split
  · rename_i hkey
    exact hkey.symm
  · rfl

theorem find?_varied_io (base : Settings) : (fields.map (varied base)).find? (·.key = "io") =
    some (.of "io" (Json.record Region.Config.fields base.region)
      fun v s => { s with region := v }) :=
  Json.find?_vary varied_key base "io"

/-- All other fields are read as they are. -/
theorem find?_varied (base : Settings) {key : String} (hkey : key ≠ "io") :
    (fields.map (varied base)).find? (·.key = key) = fields.find? (·.key = key) := by
  rw [Json.find?_vary varied_key]
  cases hfind : fields.find? (·.key = key) with
  | none => rfl
  | some f =>
    have hf : f.key = key := by simpa using List.find?_some hfind
    have hsame : varied base f = f := if_neg (hf ▸ hkey)
    rw [Option.map_some, hsame]

def reader (base : Settings) : Reader Settings := Json.record (fields.map (varied base)) base

theorem reader_default : reader {} = fromJson := by
  have hfields : fields.map (varied {}) = fields := by
    simp [fields, varied, Json.Field.of, Region.Config.fromJson]
  rw [reader, fromJson, hfields]

structure IsSized (c : Settings) : Prop where
  region : c.region.IsSized
  maxFrame : c.maxFrame < Text.wordSize
  egressInterval : c.egressInterval < Text.wordSize
  egressBatch : c.egressBatch < Text.wordSize
  readInterval : c.readInterval < Text.wordSize
  acceptInterval : c.acceptInterval < Text.wordSize

/-- The settings `base` with those under the keys `outer` taken from `c`, and of its region the
fields under the keys `inner`. -/
def overlay (base c : Settings) (inner outer : List String) : Settings where
  listen := if "listen_addr" ∈ outer then c.listen else base.listen
  collector := if "collector_addr" ∈ outer then c.collector else base.collector
  region := if "io" ∈ outer then base.region.overlay c.region inner else base.region
  maxFrame := if "max_frame_size" ∈ outer then c.maxFrame else base.maxFrame
  trailing := if "trailing_bytes" ∈ outer then c.trailing else base.trailing
  egressInterval :=
    if "egress_poll_interval_ms" ∈ outer then c.egressInterval else base.egressInterval
  egressBatch := if "egress_batch" ∈ outer then c.egressBatch else base.egressBatch
  readInterval := if "read_poll_interval_ms" ∈ outer then c.readInterval else base.readInterval
  acceptInterval :=
    if "accept_poll_interval_ms" ∈ outer then c.acceptInterval else base.acceptInterval

def texts (c : Settings) (io : List Char) : List (String × List Char) :=
  c.toJson.texts.map fun m => if m.1 = "io" then (m.1, io) else m

/-- A text with members `outer` that names some of the settings `c`, where the object under `io` has
the members `inner` and names some fields of the region. -/
inductive IsExcerpt (c : Settings) (inner outer : List (String × List Char)) : List Char → Prop
  | mk {io body front back : List Char} (hinner : Excerpt c.region.toJson.texts inner)
    (hio : IsObject inner io) (houter : Excerpt (c.texts io) outer) (hbody : IsObject outer body)
    (hf : Blank front) (hb : Blank back) : IsExcerpt c inner outer (front ++ (body ++ back))

variable {base c : Settings} {inner outer : List String}

theorem overlay_unknown {key : String} (hkey : key ∉ fields.map (·.key)) (outer : List String) :
    overlay base c inner (outer ++ [key]) = overlay base c inner outer := by
  simp only [fields, Field.of, List.map_cons, List.map_nil, List.mem_cons, List.not_mem_nil,
    or_false, not_or] at hkey
  simp [overlay, hkey, eq_comm]

theorem overlay_texts (base c : Settings) :
    overlay base c (c.region.toJson.texts.map (·.1)) (c.toJson.texts.map (·.1)) = c := by
  unfold overlay
  rw [Region.Config.overlay_texts]
  simp [toJson, Value.texts, Value.members]

theorem takes (base : Settings) (hc : c.IsSized) {inner : List (String × List Char)}
    (hinner : Excerpt c.region.toJson.texts inner) {io : List Char} (hio : IsObject inner io) :
    ∀ m ∈ c.texts io,
      Takes (fields.map (varied base)) (overlay base c (inner.map (·.1))) m.1 m.2 := by
  have htexts : c.texts io =
      [("listen_addr", (Value.string (toString c.listen)).chars),
        ("collector_addr", (Value.string (toString c.collector)).chars),
        ("io", io),
        ("max_frame_size", (Value.nat c.maxFrame).chars),
        ("trailing_bytes", (Value.string c.trailing.name).chars),
        ("egress_poll_interval_ms", (Value.nat c.egressInterval).chars),
        ("egress_batch", (Value.nat c.egressBatch).chars),
        ("read_poll_interval_ms", (Value.nat c.readInterval).chars),
        ("accept_poll_interval_ms", (Value.nat c.acceptInterval).chars)] := by
    simp [texts, toJson, Value.texts, Value.members]
  simp only [htexts, List.forall_mem_cons]
  refine ⟨?_, ?_, ?_, ?_, ?_, ?_, ?_, ?_, ?_, by simp⟩
  · exact .parsed c.listen.ofText?_toString (find?_varied base (by decide)) fun keys => by
      simp [overlay]
  · exact .parsed c.collector.ofText?_toString (find?_varied base (by decide)) fun keys => by
      simp [overlay]
  · exact .of (find?_varied_io base)
      (fun hf _ => Region.Config.record_overlay hc.region hinner hio hf)
      fun keys => by simp [overlay]
  · exact .nat hc.maxFrame (find?_varied base (by decide)) fun keys => by simp [overlay]
  · exact .choice c.trailing.lookup_name (find?_varied base (by decide)) fun keys => by
      simp [overlay]
  · exact .nat hc.egressInterval (find?_varied base (by decide)) fun keys => by simp [overlay]
  · exact .nat hc.egressBatch (find?_varied base (by decide)) fun keys => by simp [overlay]
  · exact .nat hc.readInterval (find?_varied base (by decide)) fun keys => by simp [overlay]
  · exact .nat hc.acceptInterval (find?_varied base (by decide)) fun keys => by simp [overlay]

/-- Settings are read over others. -/
theorem reader_append (base : Settings) (hc : c.IsSized) {inner outer : List (String × List Char)}
    (hinner : Excerpt c.region.toJson.texts inner) {io s front rest : List Char}
    (hio : IsObject inner io) (houter : Excerpt (c.texts io) outer) (hs : IsObject outer s)
    (hf : Blank front) :
    reader base (front ++ (s ++ rest)) =
      .ok (overlay base c (inner.map (·.1)) (outer.map (·.1)), rest) := by
  have hkeys : (fields.map (varied base)).map (·.key) = fields.map (·.key) := by
    rw [List.map_map]
    exact List.map_congr_left fun f _ => varied_key base f
  have hnone : overlay base c (inner.map (·.1)) [] = base := by simp [overlay]
  rw [reader]
  nth_rewrite 2 [← hnone]
  have hnames : (c.texts io).map (·.1) = fields.map (·.key) := rfl
  exact record_append (hnames.trans hkeys.symm) (takes base hc hinner hio)
    (fun key hkey => overlay_unknown (hkeys ▸ hkey)) houter hs hf rest

/-- A text gives the settings `c` under the keys `outer`, and of the region those under `inner`:
over any settings it is read as them with these in their place. -/
def Gives (text : String) (c : Settings) (inner outer : List String) : Prop :=
  ∀ base, Json.document (reader base) text = .ok (overlay base c inner outer)

/-- A text that names some of the settings gives them, whatever they are laid over. -/
theorem IsExcerpt.gives (hc : c.IsSized) {inner outer : List (String × List Char)}
    {text : List Char} (h : c.IsExcerpt inner outer text) :
    Gives (String.ofList text) c (inner.map (·.1)) (outer.map (·.1)) := by
  obtain ⟨hinner, hio, houter, hbody, hf, hb⟩ := h
  intro base
  exact document_append (reader_append base hc hinner hio houter hbody hf) hb

theorem Gives.ofText {text : String} {c : Settings} {inner outer : List String}
    (h : Gives text c inner outer) : ofText text = .ok (overlay {} c inner outer) := by
  rw [Settings.ofText, ← reader_default]
  exact h {}

/-- What is written for the settings names all of them. -/
theorem isExcerpt_chars (c : Settings) :
    c.IsExcerpt c.region.toJson.texts c.toJson.texts c.toJson.chars := by
  have hregion : c.texts c.region.toJson.chars = c.toJson.texts := by
    simp [texts, toJson, Value.texts, Value.members]
  have hinner : Excerpt c.region.toJson.texts c.region.toJson.texts := .refl (by
    simp [Region.Config.toJson, Value.texts, Value.members])
  have houter : Excerpt (c.texts c.region.toJson.chars) c.toJson.texts := by
    rw [hregion]
    exact .refl (by simp [toJson, Value.texts, Value.members])
  have h : c.IsExcerpt _ _ ([] ++ (c.toJson.chars ++ [])) :=
    .mk hinner (isObject_chars _) houter (isObject_chars _) blank_nil blank_nil
  rwa [List.nil_append, List.append_nil] at h

/-- A text that names some of the settings is read as the defaults with these settings in their
place, and what is written for settings is read as them. -/
theorem ofText_overlay (hc : c.IsSized) :
    (∀ {inner outer : List (String × List Char)} {text : List Char},
      c.IsExcerpt inner outer text → ofText (String.ofList text) =
        .ok (overlay {} c (inner.map (·.1)) (outer.map (·.1)))) ∧
      ofText c.toJson.render = .ok c := by
  constructor
  · intro inner outer text h
    exact (h.gives hc).ofText
  · have hall := (c.isExcerpt_chars.gives hc).ofText
    rwa [overlay_texts] at hall

def remote : Settings where
  listen := .v6 ⟨[0xfe80, 0, 0, 0, 0, 0, 0, 1], rfl⟩ 7 20787
  region := { name := "lab \"ü\"\n", slotSize := 18446744073709551615 }
  maxFrame := 256
  egressBatch := 4

def notes : List Char := "[\x7b\"a\":\"\\ud800\"\x7d,-1.5e9]".toList

theorem isValue_notes : IsValue notes := by
  have hkey : IsText ['a'] := .plain ⟨by decide, by decide, by decide⟩ .nil
  have hunit : IsUnit ['d', '8', '0', '0'] _ := .mk rfl rfl rfl rfl
  have hmember : Derives .member ([] ++ '"' :: (['a'] ++ '"' :: ([] ++ ':' :: _))) :=
    .member blank_nil hkey blank_nil (.item blank_nil (.string (.unit hunit .nil)) blank_nil)
  have hnumeral : IsNumeral (['1'] ++ (".5".toList ++ 'e' :: ([] ++ ['9']))) :=
    .mk (by decide) (by decide) (.some (by decide)) (.some (.inl rfl) (.inl rfl) (by decide))
  exact .list (.moreItems (.item blank_nil (.object (.lastMember hmember)) blank_nil)
    (.lastItem (.item blank_nil (.number (.negative hnumeral)) blank_nil)))

def remoteInner : List (String × List Char) :=
  [("unit", "null".toList), ("region_name", (Value.string remote.region.name).chars)]

def remoteIo : List Char := "\x7b\"unit\":null,\"region_name\":\"lab \\\"ü\\\"\\n\"\x7d".toList

def remoteOuter : List (String × List Char) :=
  [("egress_batch", ['4']), ("notes", notes), ("listen_addr", "\"[fe80::1%7]:20787\"".toList),
    ("io", remoteIo)]

/-- `{"egress_batch":4, "notes" : [{"a":"\ud800"},-1.5e9],"listen_addr":"[fe80::1%7]:20787",
"io":{"unit":null,"region_name":"lab \"ü\"\n"}}`, with blanks around it. -/
def remoteText : String :=
  "\n\x7b\"egress_batch\":4, \"notes\" : [\x7b\"a\":\"\\ud800\"\x7d,-1.5e9]," ++
    "\"listen_addr\":\"[fe80::1%7]:20787\"," ++
    "\"io\":\x7b\"unit\":null,\"region_name\":\"lab \\\"ü\\\"\\n\"\x7d\x7d "

theorem remote_inner : Excerpt remote.region.toJson.texts remoteInner where
  known := by decide +kernel
  unknown := by
    simp only [remoteInner, List.forall_mem_cons]
    refine ⟨fun _ => .null, fun h => absurd (by decide +kernel) h, by simp⟩
  once := by decide +kernel

theorem remote_outer : Excerpt (remote.texts remoteIo) remoteOuter where
  known := by decide +kernel
  unknown := by
    simp only [remoteOuter, List.forall_mem_cons]
    refine ⟨fun h => absurd (by decide +kernel) h, fun _ => isValue_notes,
      fun h => absurd (by decide +kernel) h, fun h => absurd (by decide +kernel) h, by simp⟩
  once := by decide +kernel

theorem isExcerpt_remote : remote.IsExcerpt remoteInner remoteOuter remoteText.toList := by
  have hinner : IsObject remoteInner _ :=
    .mk (.more (isMember_quote _ _) (.last (isMember_quote _ _)))
  have hio : IsObject remoteInner remoteIo := by
    convert hinner using 1
    decide +kernel
  have hnotes : IsMember "notes" notes
      ([' '] ++ '"' :: (_ ++ '"' :: ([' '] ++ ':' :: ([' '] ++ (notes ++ []))))) :=
    .mk (spells_escaped _) (by decide) (by decide) (by decide) blank_nil
  have houter : IsObject remoteOuter _ :=
    .mk (.more (isMember_quote _ _) (.more hnotes (.more (isMember_quote _ _)
      (.last (isMember_quote _ _)))))
  have htext : remote.IsExcerpt remoteInner remoteOuter (['\n'] ++ (_ ++ [' '])) :=
    .mk remote_inner hio remote_outer houter (by decide) (by decide)
  convert htext using 1
  decide +kernel

theorem ofText_overlay_remote : remote.IsSized ∧
    remote.IsExcerpt remoteInner remoteOuter remoteText.toList ∧
    ofText remoteText = .ok {
      listen := remote.listen
      region := { name := remote.region.name }
      egressBatch := 4 } ∧
    ofText remote.toJson.render = .ok remote := by
  have hsized : remote.IsSized := by
    refine ⟨⟨?_, ?_, ?_⟩, ?_, ?_, ?_, ?_, ?_⟩ <;> decide
  obtain ⟨hsome, hall⟩ := ofText_overlay hsized
  have hread := hsome isExcerpt_remote
  rw [String.ofList_toList] at hread
  refine ⟨hsized, isExcerpt_remote, ?_, hall⟩
  rw [hread]
  rfl

end Settings

end StreamRelay
