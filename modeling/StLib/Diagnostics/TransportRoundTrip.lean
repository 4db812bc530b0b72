import StLib.Diagnostics.TransportOrder

/-! # The transport order, there and back

`build` writes as many bytes as `get_size` says and `parse` finds them, but the block
it copies the timestamp in starts at the counter and does not skip the padding before
the year: the year of the receiver gets the high byte of the year sent as its low byte
and keeps its own high byte (`parse_build`). -/
namespace StLib.Diagnostics.TransportRoundTrip

open StLib.Base.Bytes StLib.Diagnostics.TransportOrder

/-- The year that `parse` leaves: `sent` in the bytes, `previous` in the receiver. -/
def parsedYear (sent previous : BitVec 16) : BitVec 16 :=
  wordOfBytes (highByte sent) (highByte previous)

section parts
variable (o : DiagnosticTransportOrder)

/-- What follows the origin. -/
def afterOrigin : List Byte :=
  o.message.chars ++ 0#8 :: (bytesOfWord o.timestamp.counter ++
    [o.timestamp.second, o.timestamp.minute, o.timestamp.hour, o.timestamp.day,
      o.timestamp.month] ++ bytesOfWord o.timestamp.year)

def afterMessage : List Byte :=
  bytesOfWord o.timestamp.counter ++
    [o.timestamp.second, o.timestamp.minute, o.timestamp.hour, o.timestamp.day,
      o.timestamp.month] ++ bytesOfWord o.timestamp.year

variable (beyond : Memory)

theorem advance_origin :
    (memory (encoded o) beyond).advance 4 =
      memory (o.origin.chars ++ 0#8 :: afterOrigin o) beyond :=
  advance_memory (bytesOfWord o.id ++ [diagnosticCharType, o.kind]) _ beyond

theorem originEnd_encoded :
    originEnd (memory (encoded o) beyond) = 4 + o.origin.chars.length + 1 := by
  rw [originEnd, advance_origin, strnlen_memory beyond o.origin.noNul o.origin.fits]

theorem advance_message :
    (memory (encoded o) beyond).advance (originEnd (memory (encoded o) beyond)) =
      memory (o.message.chars ++ 0#8 :: afterMessage o) beyond := by
  have hsplit : encoded o = (bytesOfWord o.id ++ [diagnosticCharType, o.kind] ++
      o.origin.chars ++ [0#8]) ++ afterOrigin o := by
    simp [encoded, afterOrigin]
  have hlen : originEnd (memory (encoded o) beyond) = (bytesOfWord o.id ++
      [diagnosticCharType, o.kind] ++ o.origin.chars ++ [0#8]).length := by
    rw [originEnd_encoded]
    simp only [List.length_append, bytesOfWord, List.length_cons, List.length_nil]
  rw [hlen, hsplit, advance_memory]
  rfl

theorem messageEnd_encoded :
    messageEnd (memory (encoded o) beyond) + timestampSize = (encoded o).length := by
  rw [messageEnd, advance_message, strnlen_memory beyond o.message.noNul o.message.fits,
    originEnd_encoded, length_encoded]
  unfold DiagnosticTransportOrder.encodedSize
  omega

theorem advance_timestamp :
    (memory (encoded o) beyond).advance (messageEnd (memory (encoded o) beyond)) =
      memory (afterMessage o) beyond := by
  have hsplit : encoded o = (bytesOfWord o.id ++ [diagnosticCharType, o.kind] ++
      o.origin.chars ++ [0#8] ++ o.message.chars ++ [0#8]) ++ afterMessage o := by
    simp [encoded, afterMessage]
  have hlen : messageEnd (memory (encoded o) beyond) = (bytesOfWord o.id ++
      [diagnosticCharType, o.kind] ++ o.origin.chars ++ [0#8] ++ o.message.chars ++
        [0#8]).length := by
    rw [messageEnd, advance_message, strnlen_memory beyond o.message.noNul o.message.fits,
      originEnd_encoded]
    simp only [List.length_append, bytesOfWord, List.length_cons, List.length_nil]
  rw [hlen, hsplit, advance_memory]

/-- The block copied into the members of `r`. -/
theorem copyTail_timestamp (r : DiagnosticTransportOrder) :
    (r.copyTail (memory (afterMessage o) beyond)).timestamp =
      { o.timestamp with year := parsedYear o.timestamp.year r.timestamp.year } := by
  have hbytes : (memory (afterMessage o) beyond).bytes timestampSize = afterMessage o := by
    have := bytes_memory (afterMessage o) [] beyond
    rwa [List.append_nil] at this
  unfold DiagnosticTransportOrder.copyTail
  rw [hbytes]
  ext1
  · exact wordOfBytes_bytes _
  all_goals rfl

end parts

/-- **What `parse` makes of the bytes built**: everything but the year. -/
theorem parse_build (o r : DiagnosticTransportOrder) (beyond : Memory) :
    let parsed := r.parse (memory o.build.1 beyond)
    parsed.id = o.id ∧ parsed.kind = o.kind ∧ parsed.origin = o.origin ∧
      parsed.message = o.message ∧ parsed.size = o.build.1.length ∧
      parsed.timestamp = { o.timestamp with
        year := parsedYear o.timestamp.year r.timestamp.year } := by
  rw [build_eq]
  refine ⟨wordOfBytes_bytes o.id, rfl, ?_, ?_, messageEnd_encoded o beyond, ?_⟩
  · show copyCString _ _ = o.origin
    rw [advance_origin]
    exact copyCString_memory _ _ _
  · show copyCString _ _ = o.message
    rw [advance_message]
    exact copyCString_memory _ _ _
  · unfold DiagnosticTransportOrder.parse
    dsimp only
    rw [advance_timestamp]
    exact copyTail_timestamp o beyond _

/-- The year survives when its two bytes are both the high byte of the receiver's. -/
theorem parsedYear_eq_iff (sent previous : BitVec 16) :
    parsedYear sent previous = sent ↔
      lowByte sent = highByte sent ∧ highByte previous = highByte sent := by
  unfold parsedYear
  constructor
  · intro h
    have hlow := congrArg lowByte h
    have hhigh := congrArg highByte h
    rw [lowByte_wordOfBytes] at hlow
    rw [highByte_wordOfBytes] at hhigh
    exact ⟨hlow.symm, hhigh⟩
  · rintro ⟨hlow, hhigh⟩
    rw [hhigh]
    conv_rhs => rw [← wordOfBytes_bytes sent, hlow]

/-! ## Main result -/

/-- **The round trip**: a record sent is restored, but for the year, unless that is
made of twice the high byte that the receiver's year has. -/
theorem transport_round_trip (o r : DiagnosticTransportOrder) (record : DiagnosticRecord)
    (description beyond : Memory) :
    let sent := o.setRecord record description
    let parsed := r.parse (memory sent.build.1 beyond)
    (sent.getSize = sent.build.1.length ∧ sent.build.1.length ≤ transportBufferCapacity ∧
      parsed.id = idFor record.severity ∧ parsed.kind = kindFor record.severity ∧
      parsed.origin = copyCString originCapacity record.origin ∧
      parsed.message = copyCString formattedMessageCapacity description ∧
      parsed.timestamp = record.timestamp) ↔
    lowByte record.timestamp.year = highByte record.timestamp.year ∧
      highByte r.timestamp.year = highByte record.timestamp.year := by
  intro sent parsed
  obtain ⟨hid, hkind, horigin, hmessage, -, htime⟩ := parse_build sent r beyond
  have hlength : sent.build.1.length = sent.encodedSize := by rw [build_eq, length_encoded]
  rw [← parsedYear_eq_iff]
  constructor
  · rintro ⟨-, -, -, -, -, -, h⟩
    exact congrArg Timestamp.year (htime.symm.trans h)
  · intro h
    refine ⟨hlength.symm, hlength ▸ encodedSize_le sent, hid, hkind, horigin, hmessage, ?_⟩
    refine htime.trans ?_
    rw [show sent.timestamp = record.timestamp from rfl, h]

/-- A record of the year 2026 reaches a new receiver as one of the year 7. -/
theorem transport_year :
    ¬ ∀ (o r : DiagnosticTransportOrder) (record : DiagnosticRecord) (description beyond : Memory),
      (r.parse (memory (o.setRecord record description).build.1 beyond)).timestamp =
        record.timestamp := by
  intro h
  let o : DiagnosticTransportOrder := { id := diagnosticOkOrderId }
  let record : DiagnosticRecord :=
    { severity := .fault, timestamp := { year := 2026#16 }, origin := fun _ => 0#8 }
  have hyear := congrArg Timestamp.year (h o o record (fun _ => 0#8) fun _ => 0#8)
  obtain ⟨-, -, -, -, -, htime⟩ := parse_build (o.setRecord record fun _ => 0#8) o fun _ => 0#8
  rw [htime] at hyear
  exact absurd hyear (by decide)

end StLib.Diagnostics.TransportRoundTrip
