namespace CodeAssist

inductive SystemError where
  | notFound
  | permissionDenied
  | exists
  | notFolder
  | isFolder
  | notEmpty
  | nameTooLong
  | tooManyLinks
  | notProgram
  | argumentsTooLong
  | nulInPath
  | nulInCommand
  | notUtf8
  | addressInUse
  | unreachable
  | refused
deriving DecidableEq, Repr

def SystemError.message : SystemError → String
  | .notFound => "No such file or directory (os error 2)"
  | .permissionDenied => "Permission denied (os error 13)"
  | .exists => "File exists (os error 17)"
  | .notFolder => "Not a directory (os error 20)"
  | .isFolder => "Is a directory (os error 21)"
  | .notEmpty => "Directory not empty (os error 39)"
  | .nameTooLong => "File name too long (os error 36)"
  | .tooManyLinks => "Too many levels of symbolic links (os error 40)"
  | .notProgram => "Exec format error (os error 8)"
  | .argumentsTooLong => "Argument list too long (os error 7)"
  | .nulInPath => "file name contained an unexpected NUL byte"
  | .nulInCommand => "nul byte found in provided data"
  | .notUtf8 => "stream did not contain valid UTF-8"
  | .addressInUse => "Address already in use (os error 98)"
  | .unreachable => "Network is unreachable (os error 101)"
  | .refused => "Connection refused (os error 111)"

end CodeAssist
