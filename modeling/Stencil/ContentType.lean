namespace Stencil.ContentType

def settings : String :=
  "application/vnd.openxmlformats-officedocument.wordprocessingml.settings+xml"

def coreProperties : String :=
  "application/vnd.openxmlformats-package.core-properties+xml"

def appProperties : String :=
  "application/vnd.openxmlformats-officedocument.extended-properties+xml"

def customProperties : String :=
  "application/vnd.openxmlformats-officedocument.custom-properties+xml"

def mainDocument : String :=
  "application/vnd.openxmlformats-officedocument.wordprocessingml.document.main+xml"

def slide : String :=
  "application/vnd.openxmlformats-officedocument.presentationml.slide+xml"

/-- Parts without runs, where markup for a line break is never valid. -/
def metadata : List String :=
  [settings, coreProperties, appProperties, customProperties]

end Stencil.ContentType
