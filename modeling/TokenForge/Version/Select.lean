import TokenForge.Version.Pragma
import TokenForge.Version.Published
import TokenForge.Version.Range

/-!
# Versions for a source

`acceptedBy` filters written versions by the version pragmas of a source, in
ascending order.  `detect` looks for the newest accepted version among the
installed ones and, if asked to, among the installable ones.

Installed and installable versions are listed as published versions and filtered
in their normal form.  The listing of installable versions is read once: the
first look-up that needs it puts it into the `Cache`, in the order of published
versions, and later look-ups use it from there.  So of installable versions that
differ in their build only, which filtering leaves as they stand, the last in
that order is the newest.
-/

namespace TokenForge

namespace Version

/-- Why versions cannot be filtered. -/
inductive FilterFault where
  | range (fault : Range.Fault)
  | version
  /-- A listing holds a text that is no published version. -/
  | listing (fault : Published.Fault)
  deriving DecidableEq, Repr

/-- Reads written versions. -/
def readAll (texts : List Text) : Except FilterFault (List Version) :=
  texts.mapM fun t =>
    match read? t with
    | some v => .ok v
    | none => .error .version

/-- The versions that the version pragmas of a source accept, ascending.  Versions of the same
precedence keep their order.  A source without a range accepts none. -/
def acceptedBy (source : Text) (versions : List Text) : Except FilterFault (List Text) :=
  match Pragma.rangeOfSource? source with
  | none | some [] => .ok []
  | some text =>
    match readRange text with
    | .error fault => .error (.range fault)
    | .ok range =>
      (readAll versions).map fun versions =>
        ((sortBy atMost versions).filter range.accepts).map render

/-! ## Listings -/

/-- Reads a listing of published versions. -/
def readListing (texts : List Text) : Except FilterFault (List Published) :=
  (texts.mapM Published.read).mapError .listing

/-- The normal forms of the versions of a listing, as they are listed. -/
def listed (texts : List Text) : Except FilterFault (List Text) :=
  (readListing texts).map fun versions => versions.map Published.render

/-- The normal forms of the versions of a listing, ascending. -/
def listedInOrder (texts : List Text) : Except FilterFault (List Text) :=
  (readListing texts).map fun versions => (sortBy Published.atMost versions).map Published.render

/-! ## Looking up -/

/-- The installable versions, ascending, once they have been read. -/
abbrev Cache := Option (List Text)

/-- What a look-up answers, and the cache after it. -/
structure Detection where
  /-- The newest accepted version, if there is one. -/
  answer : Except FilterFault (Option Text)
  cache : Cache

/-- The newest installable version that a source accepts.  The listing is read only if the cache
is empty, and a listing that cannot be read leaves it so. -/
def detectInstallable (cache : Cache) (source : Text) (installable : List Text) : Detection :=
  match cache.elim (listedInOrder installable) .ok with
  | .error fault => ⟨.error fault, cache⟩
  | .ok known => ⟨(acceptedBy source known).map List.getLast?, some known⟩

/-- The newest installed version that a source accepts.  If there is none and `tryInstall` is
set, the newest installable one. -/
def detect (cache : Cache) (source : Text) (installed installable : List Text)
    (tryInstall : Bool) : Detection :=
  match (listed installed).bind (acceptedBy source) with
  | .error fault => ⟨.error fault, cache⟩
  | .ok (v :: vs) => ⟨.ok (v :: vs).getLast?, cache⟩
  | .ok [] => if tryInstall then detectInstallable cache source installable else ⟨.ok none, cache⟩

end Version

end TokenForge
