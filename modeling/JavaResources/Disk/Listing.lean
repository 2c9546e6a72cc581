import JavaResources.Disk.Basic

/-!
# Listings of a directory

A listing names everything below a directory, however deep, by its path from there. The path of a
directory ends in a slash.
-/

namespace JavaResources.Disk

/-- The path of an entry from a directory, by the names that lead to it from there. -/
def listedPath (names : Location) (entry : Entry) : String :=
  let path := Text.joined '/' names
  match entry with
  | .directory => String.ofList (path ++ ['/'])
  | .file _ => String.ofList path

/-- What is below a location, each with its path from there, in the order of these paths. -/
def listing (disk : Disk) (directory : Location) : List (String × Entry) :=
  let below := disk.entries.filterMap fun (location, entry) =>
    if directory.isPrefixOf location ∧ location ≠ directory then
      some (listedPath (location.drop directory.length) entry, entry)
    else none
  below.mergeSort fun first second => !decide (second.1 < first.1)

end JavaResources.Disk
