import CodeAssist.Digest
import CodeAssist.Path
import CodeAssist.Table

namespace CodeAssist

structure FileEntry (κ ν : Type) where
  digest : Digest
  values : List (κ × ν)

/-- Results kept per file for as long as its buffer stays the same. Files are told apart by the
components of their paths. -/
structure FileCache (κ ν : Type) where
  files : List (List Path.Component × FileEntry κ ν) := []

namespace FileCache

variable {κ ν : Type} [DecidableEq κ]

def maxValues : Nat := 64

def entry? (cache : FileCache κ ν) (path : Path) : Option (FileEntry κ ν) :=
  cache.files.lookup path.components

/-- Looks a value up. A file whose digest is another one is forgotten. -/
def get (cache : FileCache κ ν) (path : Path) (digest : Digest) (key : κ) :
    Option ν × FileCache κ ν :=
  match cache.entry? path with
  | none => (none, cache)
  | some entry =>
      if entry.digest = digest then (entry.values.lookup key, cache)
      else (none, ⟨Table.without path.components cache.files⟩)

/-- The values that a new one joins: none if the digest is another one, or the file is full. -/
def kept (entry : FileEntry κ ν) (digest : Digest) : List (κ × ν) :=
  if entry.digest = digest ∧ entry.values.length < maxValues then entry.values else []

def insert (cache : FileCache κ ν) (path : Path) (digest : Digest) (key : κ) (value : ν) :
    FileCache κ ν :=
  let values := match cache.entry? path with
    | none => []
    | some entry => kept entry digest
  ⟨Table.put path.components ⟨digest, Table.put key value values⟩ cache.files⟩

def size (cache : FileCache κ ν) : Nat := cache.files.length

end FileCache

end CodeAssist
