import Steward.Database.Store
import Steward.Proofs.Database.Work
import Steward.Proofs.Encoding.Base64
import Steward.Proofs.Encoding.Utf8
import Steward.Proofs.Json.Reading

/-!
# Stored secrets come back unchanged

A value is stored (`put_secret`) as the base64 form of its bytes, and the values of a secret as one
document.  Bytes, base64 form and document are each read back (`get_secret`, `decode_value`) as what
was written, so that a secret has the keys and values that it was given, whether the database
answers with the text of the document or with the document.
-/

namespace Steward

/-! ## 1. Values -/

/-- **A value is decoded from its stored form.** -/
theorem Secret.decode_encode (value : String) :
    Secret.decode (Secret.encode value) = .ok value := by
  rw [Secret.decode, Secret.encode, String.toList_ofList, Base64.decode_encode]
  dsimp only
  rw [Utf8.decode_encode]
  dsimp only
  rw [String.ofList_toList]

/-! ## 2. Documents -/

namespace Database

open Statement (secretDocument)

theorem readable_secretDocument {data : SecretData} (h : (Table.keys data).Nodup) {room : Nat}
    (hroom : 0 < room) : Json.Readable room (secretDocument data) := by
  have hkeys : Table.keys (data.map fun e => (e.1, Json.string e.2)) = Table.keys data :=
    List.map_map
  refine Json.readable_object_iff.mpr ⟨hroom.ne', hkeys ▸ h, ?_⟩
  rw [List.forall_mem_map]
  exact fun e _ => ⟨⟨rfl, rfl⟩, Nat.zero_le _, rfl⟩

section

variable [Json.Room]

theorem parse_secretDocument {data : SecretData} (h : (Table.keys data).Nodup) :
    Json.parse (secretDocument data).text = .ok (secretDocument data) :=
  Json.parse_text (readable_secretDocument h Json.Room.reading_pos)

/-- There is room for the one level of a secret. -/
theorem obstacle?_putSecret {data : SecretData} (h : (Table.keys data).Nodup) (ns name : String) :
    (Statement.putSecret ns name data).obstacle? = none := by
  have hreadable := readable_secretDocument h Json.Room.writing_pos
  exact (Json.obstacle?_eq_none_iff _).mpr ⟨hreadable.depth, hreadable.printable⟩

omit [Json.Room] in
theorem keys_encodeAll (values : Table String) :
    Table.keys (Secret.encodeAll values) = Table.keys values := List.map_map

/-! ## 3. Putting and getting -/

variable {d : Database} {xs : List Work.Exchange}

/-- Putting a secret sends its name and one document. -/
theorem follows_putSecret (hd : d.connected = true) {ns name : String} {values : Table String}
    (hkeys : (Table.keys values).Nodup) {out : Except Error Unit} :
    Work.Follows (d.putSecret ns name values) xs out ↔
      ∃ reply, xs = [⟨.run (.putSecret ns name (Secret.encodeAll values)), reply⟩] ∧
        out = reply.map fun _ => () := by
  rw [putSecret, run_of_writable hd (obstacle?_putSecret (keys_encodeAll values ▸ hkeys) ns name),
    Work.follows_run_bind]
  constructor
  · rintro ⟨reply, rest, rfl, h⟩
    cases reply with
    | ok answer =>
      obtain ⟨rfl, rfl⟩ := Work.follows_pure.mp h
      exact ⟨_, rfl, rfl⟩
    | error e =>
      obtain ⟨rfl, rfl⟩ := h
      exact ⟨_, rfl, rfl⟩
  · rintro ⟨reply, rfl, rfl⟩
    cases reply with
    | ok answer => exact ⟨_, [], rfl, Work.follows_pure.mpr ⟨rfl, rfl⟩⟩
    | error e => exact ⟨_, [], rfl, rfl, rfl⟩

/-- Getting a secret asks for it, and reads what is answered. -/
theorem follows_getSecret (hd : d.connected = true) {ns name : String} {answer : Json}
    {out : Except Error (Option Held)} :
    Work.Follows (d.getSecret ns name) [⟨.run (.getSecret ns name), .ok answer⟩] out ↔
      out = secretValues answer := by
  rw [getSecret, run_of_writable hd rfl, Work.follows_run_bind]
  constructor
  · rintro ⟨reply, rest, hxs, h⟩
    cases hxs
    exact (Work.follows_settle.mp h).2
  · rintro rfl
    exact ⟨_, [], rfl, Work.follows_settle.mpr ⟨rfl, rfl⟩⟩

theorem secretValues_secretDocument {data : SecretData} (h : (Table.keys data).Nodup)
    {answer : Json}
    (hanswer : answer = .string (secretDocument data).text ∨ answer = secretDocument data) :
    secretValues answer = .ok (some (.document (secretDocument data))) := by
  rcases hanswer with rfl | rfl
  · rw [secretValues, parse, parse_secretDocument h]
    rfl
  · rfl

/-- **A secret comes back as it was put.**  Putting it sends one statement, with one text besides
its name.  If that text, or the document that it is the text of, is what the database answers when
the secret is asked for, the answer is taken, without error, for stored values under the same keys,
and each of them is decoded to the value that was put under its key. -/
theorem getSecret_of_putSecret (hd : d.connected = true) (ns name : String) {values : Table String}
    (hkeys : (Table.keys values).Nodup) :
    ∃ (sent : String) (document : Json) (stored : SecretData),
      (∀ xs out, Work.Follows (d.putSecret ns name values) xs out →
        ∃ reply, xs = [⟨.run (.putSecret ns name (Secret.encodeAll values)), reply⟩]) ∧
      (Statement.putSecret ns name (Secret.encodeAll values)).arguments =
        [.string ns, .string name, .string sent] ∧
      Json.parse sent = .ok document ∧
      (∀ answer, answer = .string sent ∨ answer = document → ∀ out,
        Work.Follows (d.getSecret ns name) [⟨.run (.getSecret ns name), .ok answer⟩] out ↔
          out = .ok (some (.document (.object (stored.map fun e => (e.1, .string e.2)))))) ∧
      stored.map (fun e => (e.1, Secret.decode e.2)) = values.map fun e => (e.1, .ok e.2) := by
  have hstored : (Table.keys (Secret.encodeAll values)).Nodup := by
    rw [keys_encodeAll]
    exact hkeys
  refine ⟨_, secretDocument (Secret.encodeAll values), Secret.encodeAll values, ?_, rfl,
    parse_secretDocument hstored, ?_, ?_⟩
  · intro xs out h
    obtain ⟨reply, hxs, -⟩ := (follows_putSecret hd hkeys).mp h
    exact ⟨reply, hxs⟩
  · intro answer hanswer out
    rw [follows_getSecret hd, secretValues_secretDocument hstored hanswer]
    rfl
  · rw [Secret.encodeAll, List.map_map]
    exact List.map_congr_left fun e _ => congrArg (Prod.mk e.1) (Secret.decode_encode e.2)

end

/-- An empty value under the empty key, and a character beyond the basic plane. -/
theorem getSecret_of_putSecret_astral :
    ∃ (d : Database) (sent : String) (stored : SecretData), d.connected = true ∧
      (Table.keys [("", ""), ("user", "𝄞")]).Nodup ∧
      Work.Follows (d.getSecret "media" "login")
        [⟨.run (.getSecret "media" "login"), .ok (.string sent)⟩]
        (.ok (some (.document (.object (stored.map fun e => (e.1, .string e.2)))))) ∧
      stored.map (fun e => (e.1, Secret.decode e.2)) = [("", .ok ""), ("user", .ok "𝄞")] := by
  let d : Database := ⟨{}, true⟩
  have hkeys : (Table.keys [("", ""), ("user", "𝄞")]).Nodup := by decide
  obtain ⟨sent, document, stored, -, -, -, hget, hvalues⟩ :=
    getSecret_of_putSecret (d := d) rfl "media" "login" hkeys
  exact ⟨d, sent, stored, rfl, hkeys, (hget _ (.inl rfl) _).mpr rfl, hvalues⟩

end Database

end Steward
