import MafwShared.SourceReplies
import MafwShared.Proofs.DbusErrors
import MafwShared.Proofs.DbusRoundTrip

/-!
# Replies arrive as they were given

Each callback of the wrapper and the function of the proxy that takes its reply use a shape of
their own. For each of the five pairs, what the source passed in comes out in one call of the
client's callback.
-/

namespace MafwShared.MafwDbus.SourceReplies
open CLib

/-- The call that a result should lead to. -/
def Result.delivered {μ : Type} (objectid : Bytes) : Result μ → Option GError → Call μ
  | .getMetadata metadata, error => .gotMetadata objectid (if error.isSome then none else metadata) error
  | .getMetadatas metadatas, error => .gotMetadatas (metadatas.map AList.toFinmap) error
  | .createObject created, error => .objectCreated (if error.isSome then none else some created) error
  | .destroyObject, error => .objectDestroyed objectid error
  | .setMetadata failedKeys, error => .metadataSet (some objectid) (some (failedKeys.getD [])) error

section
variable {μ : Type} {freeze : Option μ → Bytes} {thaw : Bytes → Option μ} {notAvailable : Int32} {sourceError : Bytes}

/-! ### Errors -/

lemma isError_gerror {error : GError} (h : 58 ∉ error.domain) :
    Proxy.mafwDbusIsError notAvailable sourceError (.error (mafwDbusGerror error)) = some (some error) := by
  rw [Proxy.mafwDbusIsError, mafwDbusGerror, errorToGerror_error notAvailable sourceError h, Option.map_some]

lemma isError_reply (args : List Arg) :
    Proxy.mafwDbusIsError notAvailable sourceError (mafwDbusReply args) = some none := rfl

/-! ### Metadata tables -/

lemma lookup_parseMetadatas (hthaw : ∀ m, thaw (freeze m) = m) (entries : List (Sigma fun _ : Bytes => Option μ))
    (hkeys : entries.NodupKeys) (table : Finmap fun _ : Bytes => Option μ) (k : Bytes) :
    (Proxy.parseMetadatas thaw (entries.map (Wrapper.appendObMdata freeze)) table).lookup k =
      (entries.dlookup k).or (table.lookup k) := by
  induction entries generalizing table with
  | nil => rfl
  | cons e entries ih =>
    obtain ⟨hnot, hkeys⟩ := List.nodupKeys_cons.mp hkeys
    rw [List.map_cons, Wrapper.appendObMdata, Proxy.parseMetadatas, hthaw, ih hkeys]
    by_cases hk : k = e.1
    · have hnone : entries.dlookup k = none := List.dlookup_eq_none.mpr (hk ▸ hnot)
      obtain ⟨key, metadata⟩ := e
      subst hk
      rw [hnone, Finmap.lookup_insert, List.dlookup_cons_eq]
      rfl
    · rw [Finmap.lookup_insert_of_ne _ hk, List.dlookup_cons_ne _ _ hk]

/-- The client's table is the source's, whatever order it was sent in. -/
lemma parseMetadatas_entries (hthaw : ∀ m, thaw (freeze m) = m) (metadatas : AList fun _ : Bytes => Option μ) :
    Proxy.parseMetadatas thaw (metadatas.entries.map (Wrapper.appendObMdata freeze)) ∅ = metadatas.toFinmap := by
  apply Finmap.ext_lookup
  intro k
  rw [lookup_parseMetadatas hthaw _ metadatas.nodupKeys, Finmap.lookup_empty, Option.or_none, Finmap.lookup_toFinmap]
  rfl

/-! ### The five pairs -/

variable {info : RequestReplyInfo} {error : Option GError}

lemma gotMetadata_delivered (hthaw : ∀ m, thaw (freeze m) = m) (metadata : Option μ)
    (herror : ∀ e ∈ error, 58 ∉ e.domain) :
    Proxy.gotMetadata thaw notAvailable sourceError info (Wrapper.gotMetadata freeze metadata error) =
      some [(Result.getMetadata metadata).delivered info.objectid error] := by
  unfold Proxy.gotMetadata Wrapper.gotMetadata
  cases error with
  | some e =>
    dsimp only
    rw [isError_gerror (herror e rfl)]
    rfl
  | none =>
    dsimp only
    rw [isError_reply]
    exact congrArg (fun m => some [Call.gotMetadata info.objectid m none]) (hthaw metadata)

/-- An empty domain stands for no error, and no error has one. -/
lemma gotMetadatas_delivered (hthaw : ∀ m, thaw (freeze m) = m)
    (metadatas : Option (AList fun _ : Bytes => Option μ)) (herror : ∀ e ∈ error, e.domain ≠ []) (objectid : Bytes) :
    Proxy.gotMetadatas thaw notAvailable sourceError (Wrapper.gotMetadatas freeze metadatas error) =
      some [(Result.getMetadatas metadatas).delivered objectid error] := by
  have htables : (metadatas.map fun t => t.entries.map (Wrapper.appendObMdata freeze)).map
      (fun elems => Proxy.parseMetadatas thaw elems ∅) = metadatas.map AList.toFinmap := by
    cases metadatas with
    | none => rfl
    | some t => exact congrArg some (parseMetadatas_entries hthaw t)
  have htriple : (if error.elim [] GError.domain ≠ [] then
      some { domain := error.elim [] GError.domain
             code := (error.elim 0 fun e => e.code.toUInt32).toInt32
             message := error.elim [] GError.message : GError } else none) = error := by
    cases error with
    | none => rfl
    | some e => exact if_pos (herror e rfl)
  have hreply : Proxy.gotMetadatas thaw notAvailable sourceError (Wrapper.gotMetadatas freeze metadatas error) =
      some [.gotMetadatas ((metadatas.map fun t => t.entries.map (Wrapper.appendObMdata freeze)).map
        (fun elems => Proxy.parseMetadatas thaw elems ∅))
        (if error.elim [] GError.domain ≠ [] then
          some { domain := error.elim [] GError.domain
                 code := (error.elim 0 fun e => e.code.toUInt32).toInt32
                 message := error.elim [] GError.message : GError } else none)] := rfl
  rw [hreply, htables, htriple]
  rfl

lemma objectCreated_delivered (hcb : info.cb = true) (created : Bytes) (herror : ∀ e ∈ error, 58 ∉ e.domain) :
    Proxy.objectCreated (μ := μ) notAvailable sourceError info (Wrapper.objectCreated created error) =
      some [(Result.createObject created).delivered info.objectid error] := by
  unfold Proxy.objectCreated Wrapper.objectCreated
  rw [hcb]
  cases error with
  | some e =>
    dsimp only
    rw [isError_gerror (herror e rfl)]
    rfl
  | none => rfl

lemma objectDestroyed_delivered (hcb : info.cb = true) (herror : ∀ e ∈ error, 58 ∉ e.domain) :
    Proxy.objectDestroyed (μ := μ) notAvailable sourceError info (Wrapper.objectDestroyed info.objectid error) =
      some [Result.destroyObject.delivered info.objectid error] := by
  unfold Proxy.objectDestroyed Wrapper.objectDestroyed
  rw [hcb]
  cases error with
  | some e =>
    dsimp only
    rw [isError_gerror (herror e rfl)]
    rfl
  | none => rfl

/-- Two arguments are a success, five an error. -/
lemma metadataSet_delivered (hcb : info.cb = true) (failedKeys : Option (List Bytes)) :
    Proxy.metadataSet (μ := μ) notAvailable sourceError info (Wrapper.metadataSet info.objectid failedKeys error) =
      some [(Result.setMetadata failedKeys).delivered info.objectid error] := by
  unfold Proxy.metadataSet Wrapper.metadataSet
  rw [hcb]
  cases error with
  | some e => rfl
  | none => rfl

/-- Whatever a source passes to the callback of a request, the client's callback is called once, with
the same payload and the same error. -/
theorem result_delivered (hthaw : ∀ m, thaw (freeze m) = m) (hcb : info.cb = true) (result : Result μ)
    (herror : ∀ e ∈ error, e.domain ≠ [] ∧ 58 ∉ e.domain) :
    result.received thaw notAvailable sourceError info (result.reply freeze info.objectid error) =
      some [result.delivered info.objectid error] := by
  have hcolon : ∀ e ∈ error, 58 ∉ e.domain := fun e he => (herror e he).2
  cases result with
  | getMetadata metadata => exact gotMetadata_delivered hthaw metadata hcolon
  | getMetadatas metadatas => exact gotMetadatas_delivered hthaw metadatas (fun e he => (herror e he).1) info.objectid
  | createObject created => exact objectCreated_delivered hcb created hcolon
  | destroyObject => exact objectDestroyed_delivered hcb hcolon
  | setMetadata failedKeys => exact metadataSet_delivered hcb failedKeys

end

/-- A serializer that marks what is not `NULL` with a byte of its own. -/
def markBytes : Option Bytes → Bytes
  | none => []
  | some b => 1 :: b

def unmarkBytes : Bytes → Option Bytes
  | [] => none
  | _ :: b => some b

/-- Setting metadata fails for one key. -/
theorem result_delivered_failedKey :
    (Result.setMetadata (some [[107]]) : Result Bytes).received unmarkBytes 0 [] ⟨[111], true⟩
        ((Result.setMetadata (some [[107]]) : Result Bytes).reply markBytes [111] (some ⟨[100], -1, [58]⟩)) =
      some [.metadataSet (some [111]) (some [[107]]) (some ⟨[100], -1, [58]⟩)] := by
  refine result_delivered ?_ rfl (Result.setMetadata (some [[107]])) ?_
  · intro m
    cases m <;> rfl
  · rintro e he
    cases he
    exact ⟨List.cons_ne_nil _ _, by decide⟩

end MafwShared.MafwDbus.SourceReplies
