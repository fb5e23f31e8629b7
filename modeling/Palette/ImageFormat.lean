import Palette.Text.FinalSigma

/-!
# Image formats

The extension of a path, in lower case, names the format that an image is
written in.  Some formats can only be read, and some take no picture with an
alpha channel; the latter is found out when the file has been opened already.
The formats that keep a picture are taken to keep one of any size.
-/

namespace Palette

/-- Why an image is not written. -/
inductive ImageFault where
  /-- No format has the extension. -/
  | unknownExtension (extension : String)
  /-- The format can only be read. -/
  | readOnly (format : String)
  /-- The format has no alpha channel. -/
  | noAlpha (format : String)
  /-- The format needs a writer of its own, which is not there. -/
  | noWriter (format : String)
  /-- A page description takes other kinds of pictures only. -/
  | pageMode
  /-- A paintbrush picture takes other kinds of pictures only. -/
  | paintbrushMode
  /-- A texture takes pictures with a table of colours only. -/
  | textureMode
deriving DecidableEq

namespace ImageFault

def message : ImageFault → String
  | unknownExtension extension => "unknown file extension: " ++ extension
  | readOnly format => format
  | noAlpha format => "cannot write mode RGBA as " ++ format
  | noWriter format => format ++ " save handler not installed"
  | pageMode => "image mode is not supported"
  | paintbrushMode => "Cannot save RGBA images as PCX"
  | textureMode => "Unsupported BLP image mode"

end ImageFault

/-- What becomes of an image in a format. -/
inductive ImageFormat where
  /-- The picture is kept with its alpha channel. -/
  | picture
  /-- The colours alone are kept, as they are. -/
  | pixmap
  /-- The file is not even opened. -/
  | readOnly (name : String)
  /-- The file is opened in vain. -/
  | refusing (fault : ImageFault)
deriving DecidableEq

namespace ImageFormat

/-- The extensions of formats that keep a picture. -/
def pictureExtensions : List String :=
  [ ".png", ".apng", ".avif", ".avifs", ".bmp", ".bw", ".dds", ".dib", ".gif", ".icb", ".icns",
    ".ico", ".im", ".j2c", ".j2k", ".jp2", ".jpc", ".jpf", ".jpx", ".pdf", ".qoi", ".rgb",
    ".rgba", ".sgi", ".tga", ".tif", ".tiff", ".vda", ".vst", ".webp" ]

def pixmapExtensions : List String :=
  [".pbm", ".pfm", ".pgm", ".pnm", ".ppm"]

def readOnlyExtensions : List (String × List String) :=
  [ ("CUR", [".cur"]), ("DCX", [".dcx"]), ("FITS", [".fit", ".fits"]), ("FLI", [".flc", ".fli"]),
    ("FTEX", [".ftc", ".ftu"]), ("GBR", [".gbr"]), ("IPTC", [".iim"]), ("MPEG", [".mpeg", ".mpg"]),
    ("PCD", [".pcd"]), ("PIXAR", [".pxr"]), ("PSD", [".psd"]), ("SUN", [".ras"]),
    ("XPM", [".xpm"]) ]

def refusingExtensions : List (ImageFault × List String) :=
  [ (.noAlpha "JPEG", [".jfif", ".jpe", ".jpeg", ".jpg", ".mpo"]),
    (.noAlpha "MSP", [".msp"]), (.noAlpha "Palm", [".palm"]), (.noAlpha "XBM", [".xbm"]),
    (.noWriter "BUFR", [".bufr"]), (.noWriter "GRIB", [".grib"]),
    (.noWriter "HDF5", [".h5", ".hdf"]), (.noWriter "WMF", [".emf", ".wmf"]),
    (.pageMode, [".eps", ".ps"]), (.paintbrushMode, [".pcx"]), (.textureMode, [".blp"]) ]

/-- The format with an extension in lower case. -/
def ofExtension? (extension : String) : Option ImageFormat :=
  if pictureExtensions.contains extension then some picture
  else if pixmapExtensions.contains extension then some pixmap
  else
    match readOnlyExtensions.find? (·.2.contains extension) with
    | some (name, _) => some (readOnly name)
    | none =>
        (refusingExtensions.find? (·.2.contains extension)).map fun entry => refusing entry.1

end ImageFormat
end Palette
