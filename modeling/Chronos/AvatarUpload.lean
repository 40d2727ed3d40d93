import Chronos.DisplayedTimes
import Chronos.Posix.Files

namespace Chronos

open Posix

/-!
# Where uploads go

`ProvidersController.uploadAvatar` writes what a provider sends to a file whose name the provider
chooses, and notes its address in the row of the provider.  The files are written at once; the `UPDATE`s
come back in any order, if they do.

* `safeName` — the name that is made of the one that was sent.
* `storeFile_confined` — one upload changes a file of the directory of uploads, and makes that directory.
* `uploads_confined` — so does every run, and a provider's address is that of an own upload.
-/

/-! ### One upload -/

/-- The body of the request; `none` is `undefined`. -/
structure AvatarBody where
  fileName : Option JsonValue
  fileData : Option JsonValue

/-- What becomes of the calls of the file system: they succeed, no directory can be made after the
    first `n` components, or the file is not written, or only its first `n` bytes are. -/
inductive UploadFate
  | done
  | noDirectory (n : Nat)
  | notWritten
  | torn (n : Nat)

/-- `[a-zA-Z0-9_.-]`. -/
def isSafe (c : Char) : Bool := c.isAlphanum || c == '_' || c == '.' || c == '-'

/-- `path.basename(fileName).replace(/[^a-zA-Z0-9_.-]/g, '')`. -/
def safeName (fileName : List Char) : List Char := (basename fileName).filter isSafe

section Upload

/- `path.resolve('apps/public/uploads')`, how an id is written, and `Buffer.from(data, 'base64')`, which
throws on what is neither a text nor a list. -/
variable (uploadDir : Path) (idText : ProviderId → List Char)
variable (bufferFrom : JsonValue → Option (List UInt8))

/-- ``body.fileName || `avatar-${providerId}.png` ``; `path.basename` throws on what is not a text. -/
def fileNameOf (id : ProviderId) (body : AvatarBody) : Option (List Char) :=
  match body.fileName.filter JsonValue.truthy with
  | none => some ("avatar-".toList ++ idText id ++ ".png".toList)
  | some (.string fileName) => some fileName.toList
  | some _ => none

/-- `if (!fs.existsSync(uploadDir)) fs.mkdirSync(uploadDir, { recursive: true })`, and whether the
    directory is there afterwards. -/
def ensureUploadDir (t : FileTree) (fate : UploadFate) : FileTree × Bool :=
  if (t.node uploadDir).isSome then (t, true)
  else match fate with
    | .noDirectory n => (((t.makeDirs [] t.root (uploadDir.take n)).getD t), false)
    | _ => match t.makeDirs [] t.root uploadDir with
      | none => (t, false)
      | some t' => (t', true)

/-- `fs.writeFileSync(filePath, Buffer.from(body.fileData, 'base64'))`, and whether it returns. -/
def writeUpload (t : FileTree) (filePath : Path) (data : JsonValue) (fate : UploadFate) :
    FileTree × Bool :=
  match bufferFrom data, fate with
  | none, _ => (t, false)
  | some _, .notWritten => (t, false)
  | some bytes, .torn n => ((t.write filePath (bytes.take n)).getD t, false)
  | some bytes, _ => match t.write filePath bytes with
    | none => (t, false)
    | some t' => (t', true)

/-- `uploadAvatar` up to its `UPDATE`: the files, and the name if nothing has thrown. -/
def storeFile (t : FileTree) (id : ProviderId) (body : AvatarBody) (fate : UploadFate) :
    FileTree × Option (List Char) :=
  match fileNameOf idText id body with
  | none => (t, none)
  | some fileName =>
    let name := safeName fileName
    match ensureUploadDir uploadDir t fate with
    | (t', false) => (t', none)
    | (t', true) =>
      match body.fileData.filter JsonValue.truthy with
      | none => (t', some name)
      | some data =>
        match writeUpload bufferFrom t' (resolve uploadDir name) data fate with
        | (t'', false) => (t'', none)
        | (t'', true) => (t'', some name)

end Upload

/-! ### The site -/

/-- The files, the column `avatar_url` of the providers there are, and the `UPDATE`s on their way. -/
structure Site where
  files : FileTree
  avatars : ProviderId → Option (Option (List Char))
  pending : List (ProviderId × List Char)

/-- A request is handled up to its `UPDATE`; the `n`th `UPDATE` is made, or is lost. -/
inductive SiteStep
  | upload (id : ProviderId) (body : AvatarBody) (fate : UploadFate)
  | record (n : Nat)
  | lose (n : Nat)

section Runs

variable (uploadDir : Path) (idText : ProviderId → List Char)
variable (bufferFrom : JsonValue → Option (List UInt8))

/-- `/uploads/${safeName}`. -/
def urlOf (name : List Char) : List Char := "/uploads/".toList ++ name

/-- `UPDATE providers SET avatar_url = $1, updated_at = now() WHERE id = $2 RETURNING *`. -/
def setAvatar (avatars : ProviderId → Option (Option (List Char))) (id : ProviderId) (url : List Char) :
    ProviderId → Option (Option (List Char)) :=
  match avatars id with
  | none => avatars
  | some _ => Function.update avatars id (some (some url))

def Site.step (s : Site) : SiteStep → Site
  | .upload id body fate =>
    match storeFile uploadDir idText bufferFrom s.files id body fate with
    | (files, none) => { s with files }
    | (files, some name) => { s with files, pending := s.pending ++ [(id, urlOf name)] }
  | .record n =>
    match s.pending[n]? with
    | none => s
    | some (id, url) =>
      { s with avatars := setAvatar s.avatars id url, pending := s.pending.eraseIdx n }
  | .lose n => { s with pending := s.pending.eraseIdx n }

def Site.run (s : Site) (steps : List SiteStep) : Site :=
  steps.foldl (Site.step uploadDir idText bufferFrom) s

/-- The request sends these bytes under this name, or more of them, and the writing stops here. -/
def SiteStep.Sends (name : List Char) (bytes : List UInt8) : SiteStep → Prop
  | .upload id body fate => (fileNameOf idText id body).map safeName = some name ∧
      ∃ data whole, body.fileData.filter JsonValue.truthy = some data ∧
        bufferFrom data = some whole ∧
        (bytes = whole ∨ ∃ n, fate = .torn n ∧ bytes = whole.take n)
  | _ => False

/-- The request of this provider asks for this address. -/
def SiteStep.AsksFor (id : ProviderId) (url : List Char) : SiteStep → Prop
  | .upload id' body _ =>
    id' = id ∧ (fileNameOf idText id body).map (fun fileName => urlOf (safeName fileName)) = some url
  | _ => False

end Runs

/-! ### What an upload changes -/

/-- A name that `safeName` can have made. -/
def SafeName (name : List Char) : Prop := ∀ c ∈ name, isSafe c = true

/-- Directories have been made on the way to `uploadDir`, and files in it, of what was sent; of a
    file whose writing has failed, that may be the beginning. -/
def Confined (uploadDir : Path) (sent : List Char → List UInt8 → Prop) (t t' : FileTree) : Prop :=
  ∀ p, t'.node p = t.node p ∨
    (t.node p = none ∧ t'.node p = some .directory ∧ p <+: uploadDir) ∨
    ∃ name bytes, p = uploadDir ++ [name] ∧ FileName name ∧ SafeName name ∧ sent name bytes ∧
      t'.node p = some (.file bytes)

/-- There is no file where the directory should be. -/
def NoFileAt (uploadDir : Path) (t : FileTree) : Prop :=
  ∀ bytes, t.node uploadDir ≠ some (.file bytes)

section Changes

variable {uploadDir : Path} {idText : ProviderId → List Char}
variable {bufferFrom : JsonValue → Option (List UInt8)} {sent sent' : List Char → List UInt8 → Prop}
variable {t t' t'' : FileTree} {id : ProviderId} {body : AvatarBody} {fate : UploadFate}
variable {data : JsonValue} {name : List Char}

theorem safeName_safe (fileName : List Char) : SafeName (safeName fileName) :=
  fun _ hc => (List.mem_filter.mp hc).2

theorem slash_notMem_safeName (fileName : List Char) : '/' ∉ safeName fileName :=
  fun h => slash_notMem_basename fileName (List.mem_filter.mp h).1

theorem Confined.refl (t : FileTree) : Confined uploadDir sent t t := fun _ => Or.inl rfl

theorem Confined.mono (h : Confined uploadDir sent t t')
    (hsent : ∀ name bytes, sent name bytes → sent' name bytes) : Confined uploadDir sent' t t' := by
  intro p
  rcases h p with hsame | hmade | ⟨name, bytes, hp, hname, hsafe, hbytes, hfile⟩
  · exact Or.inl hsame
  · exact Or.inr (Or.inl hmade)
  · exact Or.inr (Or.inr ⟨name, bytes, hp, hname, hsafe, hsent name bytes hbytes, hfile⟩)

/-- Changes add up. -/
theorem Confined.trans (h : Confined uploadDir sent t t') (h' : Confined uploadDir sent t' t'') :
    Confined uploadDir sent t t'' := by
  intro p
  rcases h' p with hsame | ⟨hnone, hmade, hway⟩ | hfile
  · rw [hsame]
    exact h p
  · rcases h p with hbefore | ⟨-, hdir, -⟩ | ⟨_, _, -, -, -, -, hfile⟩
    · exact Or.inr (Or.inl ⟨hbefore ▸ hnone, hmade, hway⟩)
    · rw [hdir] at hnone
      cases hnone
    · rw [hfile] at hnone
      cases hnone
  · exact Or.inr (Or.inr hfile)

/-- The directory itself stays one. -/
theorem Confined.noFileAt (h : Confined uploadDir sent t t') (hdir : NoFileAt uploadDir t) :
    NoFileAt uploadDir t' := by
  intro bytes hbytes
  rcases h uploadDir with hsame | ⟨-, hmade, -⟩ | ⟨name, _, heq, -⟩
  · exact hdir bytes (hsame ▸ hbytes)
  · rw [hmade] at hbytes
    cases hbytes
  · have hlength := congrArg List.length heq
    simp at hlength

theorem confined_makeDirs {names : Path} (hnames : names <+: uploadDir)
    (h : t.makeDirs [] t.root names = some t') : Confined uploadDir sent t t' := by
  intro p
  rcases (FileTree.makeDirs_eq_some h).2 p with hsame | ⟨hnone, hmade, hway⟩
  · exact Or.inl hsame
  · exact Or.inr (Or.inl ⟨hnone, hmade, hway.trans hnames⟩)

theorem ensureUploadDir_confined {there : Bool}
    (h : ensureUploadDir uploadDir t fate = (t', there)) : Confined uploadDir sent t t' := by
  unfold ensureUploadDir at h
  split at h
  · obtain rfl := (Prod.mk.inj h).1
    exact .refl t
  · split at h
    · next n =>
      cases hmade : t.makeDirs [] t.root (uploadDir.take n) with
      | none =>
        rw [hmade] at h
        obtain rfl := (Prod.mk.inj h).1
        exact .refl t
      | some t₁ =>
        rw [hmade] at h
        obtain rfl := (Prod.mk.inj h).1
        exact confined_makeDirs (List.take_prefix _ _) hmade
    · split at h
      · obtain rfl := (Prod.mk.inj h).1
        exact .refl t
      · next hmade =>
        obtain rfl := (Prod.mk.inj h).1
        exact confined_makeDirs List.prefix_rfl hmade

/-- Where the directory is there, it is one. -/
theorem ensureUploadDir_there (hdir : NoFileAt uploadDir t)
    (h : ensureUploadDir uploadDir t fate = (t', true)) : t'.node uploadDir = some .directory := by
  unfold ensureUploadDir at h
  split at h
  · next hsome =>
    obtain rfl := (Prod.mk.inj h).1
    obtain ⟨node, hnode⟩ := Option.isSome_iff_exists.mp hsome
    cases node with
    | directory => exact hnode
    | file bytes => exact absurd hnode (hdir bytes)
  · split at h
    · cases congrArg Prod.snd h
    · split at h
      · cases congrArg Prod.snd h
      · next t₁ hmade =>
        obtain rfl := (Prod.mk.inj h).1
        exact (FileTree.makeDirs_eq_some hmade).1

/-- A name without slashes that is no file's would lead to a directory, which no write replaces. -/
theorem confined_write {bytes : List UInt8} (hroot : uploadDir ≠ [])
    (hdir : t.node uploadDir = some .directory) (hslash : '/' ∉ name) (hsafe : SafeName name)
    (hsent : sent name bytes) (h : t.write (resolve uploadDir name) bytes = some t') :
    Confined uploadDir sent t t' := by
  obtain ⟨hnode, hnew⟩ := FileTree.write_eq_some h
  rcases resolve_component hslash with ⟨hname, hpath⟩ | hpath | hpath
  · rw [hpath] at hnode
    intro p
    by_cases hp : p = uploadDir ++ [name]
    · refine Or.inr (Or.inr ⟨name, bytes, hp, hname, hsafe, hsent, ?_⟩)
      rw [hnode, hp, Function.update_self]
    · exact Or.inl (by rw [hnode, Function.update_of_ne hp])
  · rw [hpath] at hnew
    exact absurd hdir hnew
  · rw [hpath] at hnew
    exact absurd (t.node_dropLast (by rw [hdir]; nofun) hroot) hnew

theorem writeUpload_confined {returned : Bool} (hroot : uploadDir ≠ [])
    (hdir : t.node uploadDir = some .directory) (hslash : '/' ∉ name) (hsafe : SafeName name)
    (hsent : ∀ bytes whole, bufferFrom data = some whole →
      (bytes = whole ∨ ∃ n, fate = .torn n ∧ bytes = whole.take n) → sent name bytes)
    (h : writeUpload bufferFrom t (resolve uploadDir name) data fate = (t', returned)) :
    Confined uploadDir sent t t' := by
  unfold writeUpload at h
  cases hbytes : bufferFrom data with
  | none =>
    rw [hbytes] at h
    obtain rfl := (Prod.mk.inj h).1
    exact .refl t
  | some bytes =>
    rw [hbytes] at h
    split at h
    · next heq => cases heq
    · obtain rfl := (Prod.mk.inj h).1
      exact .refl t
    · next n heq =>
      obtain rfl := Option.some.inj heq
      cases hwritten : t.write (resolve uploadDir name) (bytes.take n) with
      | none =>
        rw [hwritten] at h
        obtain rfl := (Prod.mk.inj h).1
        exact .refl t
      | some t₁ =>
        rw [hwritten] at h
        obtain rfl := (Prod.mk.inj h).1
        exact confined_write hroot hdir hslash hsafe
          (hsent _ bytes hbytes (Or.inr ⟨n, rfl, rfl⟩)) hwritten
    · next heq _ _ =>
      obtain rfl := Option.some.inj heq
      split at h
      · obtain rfl := (Prod.mk.inj h).1
        exact .refl t
      · next hwritten =>
        obtain rfl := (Prod.mk.inj h).1
        exact confined_write hroot hdir hslash hsafe (hsent bytes bytes hbytes (Or.inl rfl)) hwritten

/-- **One upload** changes the directory of uploads, and goes on with the name it asks for. -/
theorem storeFile_confined {stored : Option (List Char)} (hroot : uploadDir ≠ [])
    (hdir : NoFileAt uploadDir t)
    (hsent : ∀ name bytes, (SiteStep.upload id body fate).Sends idText bufferFrom name bytes →
      sent name bytes)
    (h : storeFile uploadDir idText bufferFrom t id body fate = (t', stored)) :
    Confined uploadDir sent t t' ∧
      (stored = none ∨ stored = (fileNameOf idText id body).map safeName) := by
  unfold storeFile at h
  cases hname : fileNameOf idText id body with
  | none =>
    rw [hname] at h
    obtain ⟨rfl, rfl⟩ := Prod.mk.inj h
    exact ⟨.refl t, Or.inl rfl⟩
  | some fileName =>
    rw [hname] at h
    dsimp only at h
    split at h
    · next hensured =>
      obtain ⟨rfl, rfl⟩ := Prod.mk.inj h
      exact ⟨ensureUploadDir_confined hensured, Or.inl rfl⟩
    · next t₁ hensured =>
      have hmade : Confined uploadDir sent t t₁ := ensureUploadDir_confined hensured
      split at h
      · obtain ⟨rfl, rfl⟩ := Prod.mk.inj h
        exact ⟨hmade, Or.inr rfl⟩
      · next data hdata =>
        have hwrite {t₂ : FileTree} {returned : Bool}
            (hwritten : writeUpload bufferFrom t₁ (resolve uploadDir (safeName fileName)) data fate =
              (t₂, returned)) : Confined uploadDir sent t₁ t₂ :=
          writeUpload_confined hroot (ensureUploadDir_there hdir hensured)
            (slash_notMem_safeName fileName) (safeName_safe fileName)
            (fun bytes whole hwhole hbytes =>
              hsent _ bytes ⟨by rw [hname]; rfl, data, whole, hdata, hwhole, hbytes⟩) hwritten
        split at h
        · next hwritten =>
          obtain ⟨rfl, rfl⟩ := Prod.mk.inj h
          exact ⟨hmade.trans (hwrite hwritten), Or.inl rfl⟩
        · next hwritten =>
          obtain ⟨rfl, rfl⟩ := Prod.mk.inj h
          exact ⟨hmade.trans (hwrite hwritten), Or.inr rfl⟩

end Changes

/-! ### Every run -/

section Site

variable {uploadDir : Path} {idText : ProviderId → List Char}
variable {bufferFrom : JsonValue → Option (List UInt8)}
variable {sent : List Char → List UInt8 → Prop} {asked : ProviderId → List Char → Prop}
variable {s s₀ : Site} {e : SiteStep}

/-- The addresses are those before, or ones that were asked for. -/
def AvatarsFrom (asked : ProviderId → List Char → Prop)
    (avatars avatars' : ProviderId → Option (Option (List Char))) : Prop :=
  ∀ id, avatars' id = avatars id ∨
    ((avatars id).isSome ∧ ∃ url, asked id url ∧ avatars' id = some (some url))

/-- What uploads have changed since `s₀`, and what they are about to. -/
structure UploadsKept (uploadDir : Path) (sent : List Char → List UInt8 → Prop)
    (asked : ProviderId → List Char → Prop) (s₀ s : Site) : Prop where
  files : Confined uploadDir sent s₀.files s.files
  avatars : AvatarsFrom asked s₀.avatars s.avatars
  pending : ∀ id url, (id, url) ∈ s.pending → asked id url

theorem AvatarsFrom.set {avatars avatars' : ProviderId → Option (Option (List Char))}
    {id : ProviderId} {url : List Char} (h : AvatarsFrom asked avatars avatars') (hasked : asked id url) :
    AvatarsFrom asked avatars (setAvatar avatars' id url) := by
  intro id'
  unfold setAvatar
  cases hrow : avatars' id with
  | none => exact h id'
  | some avatar =>
    by_cases hid : id' = id
    · subst hid
      refine Or.inr ⟨?_, url, hasked, Function.update_self ..⟩
      rcases h id' with hsame | ⟨hsome, -⟩
      · rw [← hsame, hrow]
        rfl
      · exact hsome
    · dsimp only
      rw [Function.update_of_ne hid]
      exact h id'

/-- One step keeps it. -/
theorem UploadsKept.step (h : UploadsKept uploadDir sent asked s₀ s) (hroot : uploadDir ≠ [])
    (hdir : NoFileAt uploadDir s₀.files)
    (hsent : ∀ name bytes, e.Sends idText bufferFrom name bytes → sent name bytes)
    (hasked : ∀ id url, e.AsksFor idText id url → asked id url) :
    UploadsKept uploadDir sent asked s₀ (s.step uploadDir idText bufferFrom e) := by
  cases e with
  | upload id body fate =>
    unfold Site.step
    dsimp only
    cases hstored : storeFile uploadDir idText bufferFrom s.files id body fate with
    | mk files stored =>
      obtain ⟨hfiles, hname⟩ := storeFile_confined hroot (h.files.noFileAt hdir) hsent hstored
      cases stored with
      | none => exact ⟨h.files.trans hfiles, h.avatars, h.pending⟩
      | some name =>
        refine ⟨h.files.trans hfiles, h.avatars, fun id' url hmem => ?_⟩
        rcases List.mem_append.mp hmem with hbefore | hnow
        · exact h.pending id' url hbefore
        · obtain ⟨rfl, rfl⟩ := Prod.mk.inj (List.mem_singleton.mp hnow)
          rcases hname with hnone | hname
          · cases hnone
          · refine hasked id' _ ⟨rfl, ?_⟩
            have hurl := congrArg (Option.map urlOf) hname
            rw [Option.map_map] at hurl
            exact hurl.symm
  | record n =>
    unfold Site.step
    dsimp only
    split
    · exact h
    · next id url hurl =>
      refine ⟨h.files, h.avatars.set (h.pending id url (List.mem_of_getElem? hurl)), ?_⟩
      exact fun id' url' hmem => h.pending id' url' (List.mem_of_mem_eraseIdx hmem)
  | lose n =>
    exact ⟨h.files, h.avatars,
      fun id url hmem => h.pending id url (List.mem_of_mem_eraseIdx hmem)⟩

/-- Every run keeps it. -/
theorem UploadsKept.run {steps : List SiteStep} (h : UploadsKept uploadDir sent asked s₀ s)
    (hroot : uploadDir ≠ []) (hdir : NoFileAt uploadDir s₀.files)
    (hsent : ∀ e ∈ steps, ∀ name bytes, e.Sends idText bufferFrom name bytes → sent name bytes)
    (hasked : ∀ e ∈ steps, ∀ id url, e.AsksFor idText id url → asked id url) :
    UploadsKept uploadDir sent asked s₀ (s.run uploadDir idText bufferFrom steps) := by
  induction steps generalizing s with
  | nil => exact h
  | cons e steps ih =>
    have hstep : UploadsKept uploadDir sent asked s₀ (s.step uploadDir idText bufferFrom e) :=
      h.step hroot hdir (hsent e List.mem_cons_self) (hasked e List.mem_cons_self)
    exact ih hstep (fun e' he' => hsent e' (List.mem_cons_of_mem _ he'))
      fun e' he' => hasked e' (List.mem_cons_of_mem _ he')

/-- **Whatever names the providers send**, uploads write files that sit in the directory of uploads and
    hold what was sent under that name, or its beginning where the writing has failed; and a
    provider's address is that of an own upload. -/
theorem uploads_confined (steps : List SiteStep) (hroot : uploadDir ≠ [])
    (hdir : NoFileAt uploadDir s.files) (hpending : s.pending = []) :
    Confined uploadDir (fun name bytes => ∃ e ∈ steps, e.Sends idText bufferFrom name bytes) s.files
        (s.run uploadDir idText bufferFrom steps).files ∧
      AvatarsFrom (fun id url => ∃ e ∈ steps, e.AsksFor idText id url) s.avatars
        (s.run uploadDir idText bufferFrom steps).avatars := by
  have hstart : UploadsKept uploadDir
      (fun name bytes => ∃ e ∈ steps, e.Sends idText bufferFrom name bytes)
      (fun id url => ∃ e ∈ steps, e.AsksFor idText id url) s s :=
    ⟨.refl _, fun _ => Or.inl rfl, fun id url hmem => by rw [hpending] at hmem; cases hmem⟩
  have hend := hstart.run hroot hdir
    (fun e he name bytes h => ⟨e, he, h⟩) (fun e he id url h => ⟨e, he, h⟩)
  exact ⟨hend.files, hend.avatars⟩

end Site

/-! ### A sample -/

def sampleUploadDir : Path := ["apps".toList, "public".toList, "uploads".toList]

def sampleSite : Site where
  files := ⟨fun path => if path = [] then some .directory else none, rfl, fun dir name h =>
    absurd (if_neg (by simp)) h⟩
  avatars id := if id = 1 then some none else none
  pending := []

def sampleSteps : List SiteStep :=
  let body (fileName : String) : AvatarBody := ⟨some (.string fileName), some (.string "aGk=")⟩
  [.upload 1 (body "../../etc/passwd") .done, .upload 2 (body "..") .done, .upload 2 (body "x/a b") .done,
    .record 1, .record 0]

def sampleBuffer : JsonValue → Option (List UInt8)
  | .string text => if text = "aGk=" then some [104, 105] else none
  | _ => none

theorem uploads_confined_sample :
    let idText (id : ProviderId) : List Char := (toString id).toList
    let after := sampleSite.run sampleUploadDir idText sampleBuffer sampleSteps
    after.files.node (sampleUploadDir ++ ["passwd".toList]) = some (.file [104, 105]) ∧
      after.avatars 1 = some (some "/uploads/passwd".toList) ∧
      Confined sampleUploadDir
        (fun name bytes => ∃ e ∈ sampleSteps, e.Sends idText sampleBuffer name bytes)
        sampleSite.files after.files ∧
      AvatarsFrom (fun id url => ∃ e ∈ sampleSteps, e.AsksFor idText id url) sampleSite.avatars
        after.avatars := by
  intro idText after
  exact ⟨by decide +kernel, by decide +kernel,
    uploads_confined sampleSteps (by decide) (fun bytes => by simp [sampleSite, sampleUploadDir]) rfl⟩

end Chronos
