import SqlBuilder.Server
import SqlBuilder.Proofs.Cache
import SqlBuilder.Proofs.ServerVersion

/-!
# Connecting with a cache

What the first connection stores, a later one reads as the version that the server reported.
For the cache in memory this is so until the entry expires or is written again.
-/
namespace SqlBuilder

namespace Client

variable {κ : Type} [Client κ]

/-- The client after it has asked for the version. -/
def asked (client : κ) : κ := (exchange client versionQuery).2

/-- The text with which the server answers when asked for its version. -/
def Reports (client : κ) (raw : String) : Prop :=
  ∃ messages, (exchange client versionQuery).1 = .ok messages ∧
    (Answer.ofMessages messages).rows.head?.bind List.head? = some (some raw)

theorem askVersion_eq (client : κ) :
    askVersion client =
      (((exchange client versionQuery).1.map Answer.ofMessages).bind versionOf, asked client) := rfl

theorem askVersion_of_reports {client : κ} {raw : String} {v : ServerVersion}
    (hraw : Reports client raw) (hv : ServerVersion.parse? raw = some v) :
    askVersion client = (.ok v, asked client) := by
  obtain ⟨messages, hmessages, hcell⟩ := hraw
  have hversion : versionOf (Answer.ofMessages messages) = .ok v := by
    rw [versionOf, hcell]
    simp only [hv]
  rw [askVersion_eq, hmessages, Except.map, Except.bind, hversion]

end Client

namespace Connection

variable {κ σ : Type} [Client κ] [MetaCache σ]

/-- Under the key there is nothing to read a version from: no entry, no text, or a text that is
no version. -/
def Misses (cache : σ) (key : String) (now : Nat) : Prop :=
  ∀ text, (MetaCache.get cache key now).1 = some (.str text) → ServerVersion.parse? text = none

theorem cachedVersion_of_misses {cache : σ} {key : String} {now : Nat}
    (h : Misses cache key now) :
    cachedVersion cache key now = (none, (MetaCache.get cache key now).2) := by
  rw [cachedVersion]
  split
  · rename_i text cache' hget
    rw [h text (congrArg Prod.fst hget), hget]
  · rename_i hget
    rw [hget]

theorem cachedVersion_of_text {cache : σ} {key text : String} {now : Nat}
    (h : (MetaCache.get cache key now).1 = some (.str text)) :
    cachedVersion cache key now =
      (ServerVersion.parse? text, (MetaCache.get cache key now).2) := by
  rw [cachedVersion]
  generalize MetaCache.get cache key now = answer at h
  obtain ⟨value, cache'⟩ := answer
  rw [show value = some (.str text) from h]

theorem server_detectCached {cache : σ} {key : String} {now : Nat} (hmiss : Misses cache key now)
    (client : κ) (ttl : Option Nat) :
    (detectCached client cache key ttl now).server = Client.asked client := by
  have hdetect : (detect client (MetaCache.get cache key now).2).server = Client.asked client := by
    rw [detect, Client.askVersion_eq]
    dsimp only
    split <;> rfl
  rw [detectCached, cachedVersion_of_misses hmiss]
  dsimp only
  split <;> exact hdetect

theorem detectCached_of_misses {client : κ} {cache : σ} {key raw : String} {now : Nat}
    {v : ServerVersion} (hmiss : Misses cache key now) (hraw : Client.Reports client raw)
    (hv : ServerVersion.parse? raw = some v) (ttl : Option Nat) :
    detectCached client cache key ttl now =
      ⟨.ok ⟨.postgres, some v⟩, [.detectedVersion v], Client.asked client,
        MetaCache.set (MetaCache.get cache key now).2 key (.str v.text) ttl now⟩ := by
  rw [detectCached, cachedVersion_of_misses hmiss]
  simp only [detect, Client.askVersion_of_reports hraw hv]

theorem detectCached_of_text {cache : σ} {key text : String} {now : Nat} {v : ServerVersion}
    (hget : (MetaCache.get cache key now).1 = some (.str text))
    (hv : ServerVersion.parse? text = some v) (client : κ) (ttl : Option Nat) :
    detectCached client cache key ttl now =
      ⟨.ok ⟨.postgres, some v⟩, [], client, (MetaCache.get cache key now).2⟩ := by
  rw [detectCached, cachedVersion_of_text hget, hv]

/-- A version is read from its text with blanks around it and anything behind it that does not go
on with its digits and points. So whatever text a server reports its version with, a connection
that finds none in the cache stores a text that gives any later connection which is handed it the
same dialect, with nothing asked. An entry that is no text, or no version, is as good as none:
the server is asked, and what it reports is written over the entry. -/
theorem stored_version_is_reported :
    (∀ (v : ServerVersion) (before decoration after : String), Text.blank before = true →
      Text.blank after = true → ServerVersion.Decoration decoration.toList →
      ServerVersion.parse? (before ++ v.text ++ decoration ++ after) = some v) ∧
    ∀ (client : κ) (cache : σ) (key : String) (ttl : Option Nat) (now : Nat),
      Misses cache key now →
      (detectCached client cache key ttl now).server = Client.asked client ∧
      ∀ raw v, Client.Reports client raw → ServerVersion.parse? raw = some v →
        ∃ stored, detectCached client cache key ttl now =
            ⟨.ok ⟨.postgres, some v⟩, [.detectedVersion v], Client.asked client,
              MetaCache.set (MetaCache.get cache key now).2 key stored ttl now⟩ ∧
          ∀ (client' : κ) (cache' : σ) (ttl' : Option Nat) (later : Nat),
            (MetaCache.get cache' key later).1 = some stored →
            detectCached client' cache' key ttl' later =
              ⟨.ok ⟨.postgres, some v⟩, [], client', (MetaCache.get cache' key later).2⟩ := by
  constructor
  · intro v before decoration after hbefore hafter hdecoration
    exact ServerVersion.parse?_decorated v hbefore hafter hdecoration
  · intro client cache key ttl now hmiss
    refine ⟨server_detectCached hmiss client ttl, fun raw v hraw hv => ?_⟩
    refine ⟨.str v.text, detectCached_of_misses hmiss hraw hv ttl, ?_⟩
    intro client' cache' ttl' later hget
    exact detectCached_of_text hget v.parse?_text client' ttl'

def decoratedServer : Server :=
  ⟨[.columns ["server_version"], .row [some " 14.2 (Debian 14.2-1.pgdg110+1)"], .done "SHOW"],
    [], []⟩

def numberCached : Cache Json := Cache.empty.set "version" (.int 14) none 0

/-- The second connection, to a server that would not answer, takes the version from the cache. -/
theorem decoratedServer_known_again :
    Misses numberCached "version" 5 ∧
    Client.Reports decoratedServer " 14.2 (Debian 14.2-1.pgdg110+1)" ∧
    ServerVersion.parse? " 14.2 (Debian 14.2-1.pgdg110+1)" = some ⟨14, 2, 0⟩ ∧
    ServerVersion.parse? ("\t" ++ (⟨8, 0, 21⟩ : ServerVersion).text ++ "-log" ++ " \n") =
      some ⟨8, 0, 21⟩ ∧
    let first := detectCached decoratedServer numberCached "version" (some 60) 5
    let again := detectCached (⟨[], [], []⟩ : Server) first.cache "version" none 30
    first.server.received = [Client.versionQuery] ∧
    again.dialect = .ok ⟨.postgres, some ⟨14, 2, 0⟩⟩ ∧ again.server.received = [] := by
  have hmiss : Misses numberCached "version" 5 := by
    intro text hget
    cases hget
  have hraw : Client.Reports decoratedServer " 14.2 (Debian 14.2-1.pgdg110+1)" := ⟨_, rfl, rfl⟩
  have hv : ServerVersion.parse? " 14.2 (Debian 14.2-1.pgdg110+1)" = some ⟨14, 2, 0⟩ := by
    decide +kernel
  have hlog : ServerVersion.Decoration "-log".toList := by
    intro c hc
    cases hc
    decide
  obtain ⟨hdecorated, hconnect⟩ := @stored_version_is_reported Server (Cache Json) _ _
  obtain ⟨stored, hfirst, hagain⟩ :=
    (hconnect decoratedServer numberCached "version" (some 60) 5 hmiss).2 _ _ hraw hv
  refine ⟨hmiss, hraw, hv, hdecorated _ _ _ _ rfl rfl hlog, ?_⟩
  dsimp only
  rw [hfirst, hagain _ _ _ _ rfl]
  exact ⟨rfl, rfl, rfl⟩

/-- In memory an entry is there until it expires, as long as nobody else writes its key. -/
theorem stored_version_lasts {before after : List (Cache.Use Json)} {key raw : String}
    {ttl : Option Nat} {now later : Nat} {v : ServerVersion} {client : κ}
    (hclock : Cache.UpTo (before ++ .get key now :: .set key (.str v.text) ttl now :: after) later)
    (hmiss : Misses (Cache.empty.run before) key now) (hraw : Client.Reports client raw)
    (hv : ServerVersion.parse? raw = some v) (hothers : ∀ u ∈ after, u.writes key = false)
    (hlive : ∀ d, ttl = some d → later < now + d) (client' : κ) (ttl' : Option Nat) :
    let first := detectCached client (Cache.empty.run before) key ttl now
    let again := detectCached client' (first.cache.run after) key ttl' later
    again.dialect = first.dialect ∧ again.server = client' := by
  have hholds : Cache.Holds (before ++ .get key now :: .set key (.str v.text) ttl now :: after) key
      (.str v.text) later :=
    ⟨before ++ [.get key now], after, ttl, now, by simp, hothers, hlive⟩
  have hrun := (Cache.fst_get_run_iff hclock key (.str v.text)).mpr hholds
  rw [Cache.run, List.foldl_append] at hrun
  have hget : (MetaCache.get (Cache.run (MetaCache.set (MetaCache.get (Cache.empty.run before) key
      now).2 key (.str v.text) ttl now) after) key later).1 = some (.str v.text) := hrun
  rw [detectCached_of_misses hmiss hraw hv]
  dsimp only
  rw [detectCached_of_text hget v.parse?_text]
  exact ⟨rfl, rfl⟩

end Connection

end SqlBuilder
